import Nexus.QuickAccessPlaces

namespace Nexus.UiHost

namespace QuickAccess

structure Within (config : QuickAccessConfig) (qa : QuickAccess) : Prop where
  shortcuts : qa.shortcuts.toList.length ≤ config.maximumShortcuts
  contextItems : qa.contextCount ≤ config.maximumContextItems
  notifications : ∀ id shortcut, qa.shortcuts.get? id = some shortcut →
    shortcut.notifications.length ≤ config.maximumNotificationsPerShortcut
  suppressed : qa.suppressed.toList.length ≤ config.maximumSuppressedIdentifiers

def itemCount (shortcut : Shortcut) : Nat := shortcut.contextItems.toList.length

theorem contextCount_eq (qa : QuickAccess) :
    qa.contextCount = qa.orphans.toList.length + qa.shortcuts.total itemCount := rfl

variable {config : QuickAccessConfig} {qa : QuickAccess}

theorem Within.new (slots : CallbackSlots) : Within config (QuickAccess.new slots) :=
  ⟨Nat.zero_le _, Nat.zero_le _, (fun _ _ h => by cases h), Nat.zero_le _⟩

theorem Within.bump (h : Within config qa) : Within config qa.bump :=
  ⟨h.shortcuts, h.contextItems, h.notifications, h.suppressed⟩

theorem Within.deactivate (h : Within config qa) (item : ContextItem) :
    Within config (qa.deactivate item) :=
  ⟨h.shortcuts, h.contextItems, h.notifications, h.suppressed⟩

theorem Within.putShortcut (h : Within config qa) {id : String} {old shortcut : Shortcut}
    (hget : qa.shortcuts.get? id = some old) (hitems : itemCount shortcut ≤ itemCount old)
    (hnotifications : shortcut.notifications.length ≤ config.maximumNotificationsPerShortcut) :
    Within config (qa.putShortcut id shortcut) := by
  have hcount := h.contextItems
  rw [contextCount_eq, SortedMap.total_erase itemCount hget] at hcount
  refine ⟨?_, ?_, fun other found hfound => ?_, h.suppressed⟩
  · exact (SortedMap.length_put_of_get? hget shortcut).trans_le h.shortcuts
  · rw [contextCount_eq]
    show qa.orphans.toList.length + (qa.shortcuts.put id shortcut).total itemCount ≤ _
    rw [SortedMap.total_put]
    omega
  · have hput : (qa.shortcuts.put id shortcut).get? other = some found := hfound
    rw [SortedMap.get?_put] at hput
    split at hput
    · cases hput
      exact hnotifications
    · exact h.notifications other found hput

theorem contextCount_orphan_le (qa : QuickAccess) (entry : String × ContextItem) :
    (qa.orphan entry).contextCount ≤ qa.contextCount + 1 := by
  unfold orphan
  split
  · exact Nat.le_succ _
  · rw [contextCount_eq, contextCount_eq]
    have hput := SortedMap.length_put_le qa.orphans entry.1 entry.2
    dsimp only
    omega

theorem contextCount_foldl_orphan_le (entries : List (String × ContextItem)) (qa : QuickAccess) :
    (entries.foldl orphan qa).contextCount ≤ qa.contextCount + entries.length := by
  induction entries generalizing qa with
  | nil => exact le_refl _
  | cons entry _ ih =>
    have hfirst := contextCount_orphan_le qa entry
    have hrest := ih (qa.orphan entry)
    rw [List.foldl_cons, List.length_cons]
    omega

theorem Within.dropShortcut (h : Within config qa) {entry : String × Shortcut}
    (hget : qa.shortcuts.get? entry.1 = some entry.2) : Within config (qa.dropShortcut entry) := by
  have hframe := foldl_orphan_frame entry.2.contextItems.toList
    { qa with shortcuts := qa.shortcuts.erase entry.1 }
  have hmoved := contextCount_foldl_orphan_le entry.2.contextItems.toList
    { qa with shortcuts := qa.shortcuts.erase entry.1 }
  have hcount := h.contextItems
  rw [contextCount_eq, SortedMap.total_erase itemCount hget] at hcount
  rw [contextCount_eq { qa with shortcuts := qa.shortcuts.erase entry.1 }] at hmoved
  have hitems : itemCount entry.2 = entry.2.contextItems.toList.length := rfl
  unfold QuickAccess.dropShortcut
  refine ⟨?_, ?_, fun id shortcut hfound => ?_, ?_⟩
  · rw [hframe.1]
    exact (SortedMap.length_erase_le _ _).trans h.shortcuts
  · dsimp only at hmoved
    omega
  · rw [hframe.1, SortedMap.get?_erase] at hfound
    split at hfound
    · cases hfound
    · exact h.notifications id shortcut hfound
  · rw [hframe.2.1]
    exact h.suppressed

theorem Within.foldl_dropShortcut {entries : List (String × Shortcut)} (h : Within config qa)
    (hentries : ∀ entry ∈ entries, qa.shortcuts.get? entry.1 = some entry.2)
    (hnodup : (entries.map Prod.fst).Nodup) : Within config (entries.foldl QuickAccess.dropShortcut qa) := by
  induction entries generalizing qa with
  | nil => exact h
  | cons entry _ ih =>
    rw [List.map_cons, List.nodup_cons] at hnodup
    refine ih (h.dropShortcut (hentries entry List.mem_cons_self)) (fun other hother => ?_) hnodup.2
    have hne : other.1 ≠ entry.1 := fun heq => hnodup.1 (heq ▸ List.mem_map_of_mem hother)
    have hshortcuts : (qa.dropShortcut entry).shortcuts = qa.shortcuts.erase entry.1 :=
      (foldl_orphan_frame _ _).1
    rw [hshortcuts, SortedMap.get?_erase, if_neg hne]
    exact hentries other (List.mem_cons_of_mem _ hother)

theorem Within.adopt {state : Nat × QuickAccess} (h : Within config state.2) (id : String) :
    Within config (QuickAccess.adopt state id).2 := by
  unfold QuickAccess.adopt
  split
  · exact h
  next item hitem =>
  have hcount := h.contextItems
  rw [contextCount_eq, SortedMap.length_erase hitem] at hcount
  have herased : Within config { state.2 with orphans := state.2.orphans.erase id } := by
    refine ⟨h.shortcuts, ?_, h.notifications, h.suppressed⟩
    rw [contextCount_eq]
    dsimp only
    omega
  dsimp only
  split
  · exact herased
  next parent hparent =>
  split
  · exact herased.deactivate item
  · refine ⟨?_, ?_, fun other found hfound => ?_, h.suppressed⟩
    · exact (SortedMap.length_put_of_get? hparent _).trans_le h.shortcuts
    · have hput := SortedMap.length_put_le parent.contextItems item.id item
      rw [SortedMap.total_erase itemCount hparent] at hcount
      rw [contextCount_eq]
      show (state.2.orphans.erase id).toList.length +
        (state.2.shortcuts.put item.target _).total itemCount ≤ _
      rw [SortedMap.total_put]
      unfold itemCount at hcount ⊢
      dsimp only at hcount ⊢
      omega
    · have hput : (state.2.shortcuts.put item.target { parent with
          contextItems := parent.contextItems.put item.id item }).get? other = some found := hfound
      rw [SortedMap.get?_put] at hput
      split at hput
      · cases hput
        exact h.notifications item.target parent hparent
      · exact h.notifications other found hput

theorem Within.reparentOrphans (h : Within config qa) : Within config qa.reparentOrphans.2 := by
  unfold QuickAccess.reparentOrphans
  have hfold (keys : List String) (state : Nat × QuickAccess) (hs : Within config state.2) :
      Within config (keys.foldl QuickAccess.adopt state).2 := by
    induction keys generalizing state with
    | nil => exact hs
    | cons key _ ih => exact ih _ (hs.adopt key)
  exact hfold _ (0, qa) h

theorem Within.mapValues {next : QuickAccess} (h : Within config qa) (f : Shortcut → Shortcut)
    (keeps : String → ContextItem → Bool)
    (hshortcuts : next.shortcuts = qa.shortcuts.mapValues f)
    (horphans : next.orphans = qa.orphans.filter keeps)
    (hsuppressed : next.suppressed = qa.suppressed)
    (hitems : ∀ shortcut, itemCount (f shortcut) ≤ itemCount shortcut)
    (hnotifications : ∀ shortcut,
      (f shortcut).notifications.length ≤ shortcut.notifications.length) : Within config next := by
  refine ⟨?_, ?_, fun id shortcut hget => ?_, hsuppressed ▸ h.suppressed⟩
  · rw [hshortcuts]
    exact (List.length_map ..).trans_le h.shortcuts
  · have horphanCount : (qa.orphans.filter keeps).toList.length ≤ qa.orphans.toList.length :=
      List.length_filter_le ..
    have htotal := SortedMap.total_mapValues_le hitems qa.shortcuts
    have hcount := h.contextItems
    rw [contextCount_eq] at hcount ⊢
    rw [hshortcuts, horphans]
    omega
  · rw [hshortcuts, SortedMap.get?_mapValues] at hget
    obtain ⟨old, hold, rfl⟩ := Option.map_eq_some_iff.mp hget
    exact (hnotifications old).trans (h.notifications id old hold)

theorem itemCount_keepItems_le (keeps : String → ContextItem → Bool) (shortcut : Shortcut) :
    itemCount (shortcut.keepItems keeps) ≤ itemCount shortcut := List.length_filter_le ..

theorem Within.dropOwnerItems (h : Within config qa) (owner : OwnerGeneration) :
    Within config (qa.dropOwnerItems owner) := by
  refine h.mapValues (Shortcut.withoutOwner owner) (fun _ item => item.owner ≠ owner) rfl rfl ?_
    (fun shortcut => itemCount_keepItems_le _ shortcut) fun shortcut => List.length_filter_le ..
  exact foldl_deactivate_suppressed (qa.ownedItems owner) qa

theorem Within.takeItems (h : Within config qa) (removes : ContextItem → Bool) (id : String) :
    Within config (qa.takeItems removes id) := by
  refine h.mapValues (Shortcut.keepItems _) (fun key item => !(decide (key = id) && removes item))
    rfl rfl ?_ (fun shortcut => itemCount_keepItems_le _ shortcut) fun shortcut => le_refl _
  exact foldl_deactivate_suppressed (qa.takenItems removes id) qa

theorem Within.placeItem {item : ContextItem} (h : Within config qa)
    (hroom : qa.contextCount < config.maximumContextItems) :
    Within config (qa.placeItem item).2 := by
  rw [contextCount_eq] at hroom
  unfold QuickAccess.placeItem
  split
  next shortcut hget =>
    have hput := SortedMap.length_put_le shortcut.contextItems item.id item
    rw [SortedMap.total_erase itemCount hget] at hroom
    refine ⟨?_, ?_, fun other found hfound => ?_, h.suppressed⟩
    · exact (SortedMap.length_put_of_get? hget _).trans_le h.shortcuts
    · rw [contextCount_eq]
      show qa.orphans.toList.length + (qa.shortcuts.put item.target _).total itemCount ≤ _
      rw [SortedMap.total_put]
      unfold itemCount at hroom ⊢
      dsimp only at hroom ⊢
      omega
    · have hput : (qa.shortcuts.put item.target { shortcut with
          contextItems := shortcut.contextItems.put item.id item }).get? other = some found := hfound
      rw [SortedMap.get?_put] at hput
      split at hput
      · cases hput
        exact h.notifications item.target shortcut hget
      · exact h.notifications other found hput
  next =>
    refine ⟨h.shortcuts, ?_, h.notifications, h.suppressed⟩
    have hput := SortedMap.length_put_le qa.orphans item.id item
    rw [contextCount_eq]
    dsimp only
    omega

end QuickAccess

end Nexus.UiHost
