import Mathlib.Data.List.Nodup
import Nexus.QuickAccess

namespace Nexus.UiHost

inductive ItemPlace where
  | orphanage
  | shortcut (id : String)
  deriving DecidableEq

namespace QuickAccess

def at? (qa : QuickAccess) : ItemPlace → String → Option ContextItem
  | .orphanage, key => qa.orphans.get? key
  | .shortcut id, key => (qa.shortcuts.get? id).bind fun shortcut => shortcut.contextItems.get? key

theorem at?_shortcut {qa : QuickAccess} {id : String} {shortcut : Shortcut}
    (h : qa.shortcuts.get? id = some shortcut) (key : String) :
    qa.at? (.shortcut id) key = shortcut.contextItems.get? key := by
  show ((qa.shortcuts.get? id).bind fun shortcut => shortcut.contextItems.get? key) = _
  rw [h, Option.bind_some]

theorem shortcut_of_at? {qa : QuickAccess} {id key : String} {item : ContextItem}
    (h : qa.at? (.shortcut id) key = some item) :
    ∃ shortcut, qa.shortcuts.get? id = some shortcut ∧
      shortcut.contextItems.get? key = some item :=
  Option.bind_eq_some_iff.mp h

@[simp] theorem deactivate_orphans (qa : QuickAccess) (item : ContextItem) :
    (qa.deactivate item).orphans = qa.orphans := rfl

/-- Where the items are, and that each is there once with an active slot. -/
structure Arranged (qa : QuickAccess) : Prop where
  itemId : ∀ place key item, qa.at? place key = some item → item.id = key
  target : ∀ id key item, qa.at? (.shortcut id) key = some item → item.target = id
  orphan : ∀ key item, qa.orphans.get? key = some item → qa.shortcuts.get? item.target = none
  distinct : ∀ place key item, qa.at? place key = some item →
    ∀ other otherKey otherItem, qa.at? other otherKey = some otherItem →
      item.callback.address = otherItem.callback.address → place = other ∧ key = otherKey
  active : ∀ place key item, qa.at? place key = some item →
    qa.slots.isActive item.callback = true
  allocated : ∀ place key item, qa.at? place key = some item →
    item.callback.address < qa.slots.next
  suppressed : ∀ id shortcut, qa.shortcuts.get? id = some shortcut →
    shortcut.suppressed = (qa.suppressed.get? id).isSome

theorem Arranged.new (slots : CallbackSlots) : Arranged (QuickAccess.new slots) := by
  have hnone : ∀ place key, (QuickAccess.new slots).at? place key = none := by
    intro place key
    cases place <;> rfl
  have habsurd : ∀ {place key item}, (QuickAccess.new slots).at? place key = some item → False := by
    intro place key item h
    rw [hnone] at h
    cases h
  exact ⟨fun _ _ _ h => (habsurd h).elim, fun _ _ _ h => (habsurd h).elim,
    fun _ _ h => (by cases h), fun _ _ _ h => (habsurd h).elim,
    fun _ _ _ h => (habsurd h).elim, fun _ _ _ h => (habsurd h).elim, fun _ _ h => by cases h⟩

/-- An arranged registry stays so when items only move or go, the slots of those that stay are
kept, and the shortcuts and the orphans fit together. -/
theorem Arranged.of_moved {qa next : QuickAccess} (h : Arranged qa)
    (hfrom : ∀ place key item, next.at? place key = some item →
      ∃ old, qa.at? old key = some item)
    (hunique : ∀ place other key item, next.at? place key = some item →
      next.at? other key = some item → place = other)
    (htarget : ∀ id key item, next.at? (.shortcut id) key = some item → item.target = id)
    (horphan : ∀ key item, next.orphans.get? key = some item →
      next.shortcuts.get? item.target = none)
    (hactive : ∀ place key item, next.at? place key = some item →
      next.slots.isActive item.callback = true)
    (hnext : next.slots.next = qa.slots.next)
    (hsuppressed : ∀ id shortcut, next.shortcuts.get? id = some shortcut →
      shortcut.suppressed = (next.suppressed.get? id).isSome) : Arranged next where
  itemId := fun place key item hat => by
    obtain ⟨old, hold⟩ := hfrom place key item hat
    exact h.itemId old key item hold
  target := htarget
  orphan := horphan
  distinct := fun place key item hat other otherKey otherItem hother haddress => by
    obtain ⟨old, hold⟩ := hfrom place key item hat
    obtain ⟨otherOld, hotherOld⟩ := hfrom other otherKey otherItem hother
    obtain ⟨hplace, rfl⟩ := h.distinct old key item hold otherOld otherKey otherItem hotherOld haddress
    subst hplace
    rw [hold] at hotherOld
    cases hotherOld
    exact ⟨hunique place other key item hat hother, rfl⟩
  active := hactive
  allocated := fun place key item hat => by
    obtain ⟨old, hold⟩ := hfrom place key item hat
    rw [hnext]
    exact h.allocated old key item hold
  suppressed := hsuppressed

theorem isActive_deactivate (qa : QuickAccess) (item : ContextItem) (slot : CallbackSlot) :
    (qa.deactivate item).slots.isActive slot =
      (qa.slots.isActive slot && decide (slot.address ≠ item.callback.address)) :=
  CallbackSlots.isActive_deactivate qa.slots item.callback slot

theorem foldl_deactivate (items : List ContextItem) (qa : QuickAccess) :
    items.foldl deactivate qa = { qa with slots := (items.foldl deactivate qa).slots } ∧
      (items.foldl deactivate qa).slots.next = qa.slots.next ∧
      ∀ slot : CallbackSlot, (∀ item ∈ items, item.callback.address ≠ slot.address) →
        (items.foldl deactivate qa).slots.isActive slot = qa.slots.isActive slot := by
  induction items generalizing qa with
  | nil => exact ⟨rfl, rfl, fun _ _ => rfl⟩
  | cons item _ ih =>
    obtain ⟨hsame, hnext, hactive⟩ := ih (qa.deactivate item)
    refine ⟨hsame, hnext, fun slot hslot => ?_⟩
    have hne := hslot item List.mem_cons_self
    rw [List.foldl_cons, hactive slot fun other hother => hslot other (List.mem_cons_of_mem _ hother),
      isActive_deactivate]
    simp [hne.symm]

theorem foldl_deactivate_suppressed (items : List ContextItem) (qa : QuickAccess) :
    (items.foldl deactivate qa).suppressed = qa.suppressed := by
  rw [(foldl_deactivate items qa).1]

theorem get?_orphan_or (qa : QuickAccess) (entry : String × ContextItem)
    (rest : List (String × ContextItem)) (key : String) :
    ((qa.orphan entry).orphans.get? key).or (SortedMap.find key rest) =
      (qa.orphans.get? key).or (SortedMap.find key (entry :: rest)) := by
  obtain ⟨id, _⟩ := entry
  unfold orphan
  split
  next htaken =>
    rw [deactivate_orphans]
    rcases hget : qa.orphans.get? key with _ | _
    · have hne : id ≠ key := by
        rintro rfl
        rw [hget] at htaken
        cases htaken
      simp [SortedMap.find, hne]
    · rfl
  next hfree =>
    rw [SortedMap.get?_put]
    by_cases hkey : key = id
    · subst hkey
      rw [Option.not_isSome_iff_eq_none] at hfree
      simp [SortedMap.find, hfree]
    · simp [SortedMap.find, hkey, Ne.symm hkey]

theorem get?_foldl_orphan (entries : List (String × ContextItem)) (qa : QuickAccess)
    (key : String) :
    (entries.foldl orphan qa).orphans.get? key =
      (qa.orphans.get? key).or (SortedMap.find key entries) := by
  induction entries generalizing qa with
  | nil => exact (Option.or_none ..).symm
  | cons _ _ ih => rw [List.foldl_cons, ih, get?_orphan_or]

@[simp] theorem orphan_shortcuts (qa : QuickAccess) (entry : String × ContextItem) :
    (qa.orphan entry).shortcuts = qa.shortcuts := by
  unfold orphan
  split <;> rfl

@[simp] theorem orphan_suppressed (qa : QuickAccess) (entry : String × ContextItem) :
    (qa.orphan entry).suppressed = qa.suppressed := by
  unfold orphan
  split <;> rfl

@[simp] theorem orphan_next (qa : QuickAccess) (entry : String × ContextItem) :
    (qa.orphan entry).slots.next = qa.slots.next := by
  unfold orphan
  split <;> rfl

theorem foldl_orphan_frame (entries : List (String × ContextItem)) (qa : QuickAccess) :
    (entries.foldl orphan qa).shortcuts = qa.shortcuts ∧
      (entries.foldl orphan qa).suppressed = qa.suppressed ∧
      (entries.foldl orphan qa).slots.next = qa.slots.next := by
  induction entries generalizing qa with
  | nil => exact ⟨rfl, rfl, rfl⟩
  | cons entry _ ih =>
    obtain ⟨hshortcuts, hsuppressed, hnext⟩ := ih (qa.orphan entry)
    rw [orphan_shortcuts] at hshortcuts
    rw [orphan_suppressed] at hsuppressed
    rw [orphan_next] at hnext
    exact ⟨hshortcuts, hsuppressed, hnext⟩

theorem isActive_foldl_orphan {entries : List (String × ContextItem)}
    (hnodup : (entries.map fun entry => entry.2.callback.address).Nodup) (qa : QuickAccess)
    (slot : CallbackSlot)
    (h : ∀ entry ∈ entries, entry.2.callback.address = slot.address →
      (qa.orphans.get? entry.1).or (SortedMap.find entry.1 entries) = some entry.2 ∧
        qa.orphans.get? entry.1 = none) :
    (entries.foldl orphan qa).slots.isActive slot = qa.slots.isActive slot := by
  induction entries generalizing qa with
  | nil => rfl
  | cons entry rest ih =>
    rw [List.map_cons, List.nodup_cons] at hnodup
    have hfirst : (qa.orphan entry).slots.isActive slot = qa.slots.isActive slot := by
      unfold orphan
      split
      next htaken =>
        have hne : slot.address ≠ entry.2.callback.address := by
          intro heq
          rw [(h entry List.mem_cons_self heq.symm).2] at htaken
          cases htaken
        rw [isActive_deactivate]
        simp [hne]
      next => rfl
    rw [List.foldl_cons, ih hnodup.2, hfirst]
    intro other hother haddress
    obtain ⟨hheld, hfree⟩ := h other (List.mem_cons_of_mem _ hother) haddress
    refine ⟨(get?_orphan_or qa entry rest other.1).trans hheld, ?_⟩
    have hne : other.1 ≠ entry.1 := by
      intro heq
      rw [hfree, heq, SortedMap.find, if_pos rfl] at hheld
      have hsame : entry.2 = other.2 := Option.some.inj hheld
      refine hnodup.1 (List.mem_map.mpr ⟨other, hother, ?_⟩)
      rw [hsame]
    unfold orphan
    split
    · exact hfree
    · rw [SortedMap.get?_put, if_neg hne]
      exact hfree

theorem inactive_orphan {qa : QuickAccess} {slot : CallbackSlot}
    (h : qa.slots.isActive slot = false) (entry : String × ContextItem) :
    (qa.orphan entry).slots.isActive slot = false := by
  unfold orphan
  split
  · rw [isActive_deactivate, h, Bool.false_and]
  · exact h

theorem inactive_foldl_orphan {entries : List (String × ContextItem)} {qa : QuickAccess}
    {slot : CallbackSlot} (h : qa.slots.isActive slot = false) :
    (entries.foldl orphan qa).slots.isActive slot = false := by
  induction entries generalizing qa with
  | nil => exact h
  | cons entry _ ih => exact ih (inactive_orphan h entry)

theorem displaced_inactive {entries : List (String × ContextItem)} {qa : QuickAccess}
    {entry : String × ContextItem} (hentry : entry ∈ entries)
    (h : (qa.orphans.get? entry.1).or (SortedMap.find entry.1 entries) ≠ some entry.2) :
    (entries.foldl orphan qa).slots.isActive entry.2.callback = false := by
  induction entries generalizing qa with
  | nil => cases hentry
  | cons _ _ ih =>
    rw [List.foldl_cons]
    rcases List.mem_cons.mp hentry with rfl | hrest
    · refine inactive_foldl_orphan ?_
      unfold orphan
      split
      · rw [isActive_deactivate]
        simp
      next hfree =>
        rw [Option.not_isSome_iff_eq_none] at hfree
        rw [hfree, SortedMap.find, if_pos rfl] at h
        exact absurd rfl h
    · refine ih hrest ?_
      rw [get?_orphan_or]
      exact h

def itemsOf (entries : List (String × Shortcut)) : List (String × ContextItem) :=
  entries.flatMap fun entry => entry.2.contextItems.toList

def withShortcuts (qa : QuickAccess) (shortcuts : SortedMap String Shortcut) : QuickAccess :=
  { qa with shortcuts }

theorem foldl_orphan_withShortcuts (entries : List (String × ContextItem)) (qa : QuickAccess)
    (shortcuts : SortedMap String Shortcut) :
    (entries.foldl orphan qa).withShortcuts shortcuts =
      entries.foldl orphan (qa.withShortcuts shortcuts) := by
  induction entries generalizing qa with
  | nil => rfl
  | cons entry _ ih =>
    have hstep : (qa.orphan entry).withShortcuts shortcuts =
        (qa.withShortcuts shortcuts).orphan entry := by
      unfold orphan withShortcuts
      split <;> rfl
    rw [List.foldl_cons, List.foldl_cons, ih, hstep]

theorem foldl_dropShortcut (entries : List (String × Shortcut)) (qa : QuickAccess) :
    entries.foldl dropShortcut qa = (itemsOf entries).foldl orphan
      (qa.withShortcuts ((entries.map Prod.fst).foldl SortedMap.erase qa.shortcuts)) := by
  induction entries generalizing qa with
  | nil => rfl
  | cons entry _ ih =>
    have hshortcuts : (qa.dropShortcut entry).shortcuts = qa.shortcuts.erase entry.1 :=
      (foldl_orphan_frame _ _).1
    have hfirst (shortcuts : SortedMap String Shortcut) :
        (qa.dropShortcut entry).withShortcuts shortcuts =
          entry.2.contextItems.toList.foldl orphan (qa.withShortcuts shortcuts) :=
      foldl_orphan_withShortcuts ..
    rw [List.foldl_cons, ih, hshortcuts, hfirst, ← List.foldl_append]
    rfl

section Dropped

variable {qa : QuickAccess} {entries : List (String × Shortcut)}
  (h : Arranged qa) (hentries : ∀ entry ∈ entries, qa.shortcuts.get? entry.1 = some entry.2)
  (hnodup : (entries.map Prod.fst).Nodup)

theorem orphanage_dropped (key : String) :
    (entries.foldl dropShortcut qa).at? .orphanage key =
      (qa.orphans.get? key).or (SortedMap.find key (itemsOf entries)) := by
  rw [foldl_dropShortcut]
  exact get?_foldl_orphan (itemsOf entries) _ key

theorem shortcuts_dropped (id : String) :
    (entries.foldl dropShortcut qa).shortcuts.get? id =
      if id ∈ entries.map Prod.fst then none else qa.shortcuts.get? id := by
  rw [foldl_dropShortcut, (foldl_orphan_frame _ _).1]
  exact SortedMap.get?_foldl_erase (entries.map Prod.fst) id qa.shortcuts

theorem shortcut_dropped (id key : String) :
    (entries.foldl dropShortcut qa).at? (.shortcut id) key =
      if id ∈ entries.map Prod.fst then none else qa.at? (.shortcut id) key := by
  show ((entries.foldl dropShortcut qa).shortcuts.get? id).bind _ = _
  rw [shortcuts_dropped]
  split <;> rfl

include hentries in
theorem at?_of_mem_itemsOf {entry : String × ContextItem} (hentry : entry ∈ itemsOf entries) :
    ∃ id ∈ entries.map Prod.fst, qa.at? (.shortcut id) entry.1 = some entry.2 := by
  obtain ⟨holder, hholder, hmem⟩ := List.mem_flatMap.mp hentry
  refine ⟨holder.1, List.mem_map_of_mem hholder, ?_⟩
  rw [at?_shortcut (hentries holder hholder)]
  exact SortedMap.get?_of_mem hmem

include hentries in
theorem at?_of_find_itemsOf {key : String} {item : ContextItem}
    (hfind : SortedMap.find key (itemsOf entries) = some item) :
    ∃ id ∈ entries.map Prod.fst, qa.at? (.shortcut id) key = some item :=
  at?_of_mem_itemsOf hentries (SortedMap.find_mem hfind)

include h hentries hnodup in
theorem nodup_addresses :
    ((itemsOf entries).map fun entry => entry.2.callback.address).Nodup := by
  induction entries with
  | nil => exact List.nodup_nil
  | cons entry rest ih =>
    rw [List.map_cons, List.nodup_cons] at hnodup
    have hhead := hentries entry List.mem_cons_self
    have hrest := fun other hother => hentries other (List.mem_cons_of_mem _ hother)
    have hheld : ∀ held ∈ entry.2.contextItems.toList,
        qa.at? (.shortcut entry.1) held.1 = some held.2 := by
      intro held hmem
      rw [at?_shortcut hhead]
      exact SortedMap.get?_of_mem hmem
    have happend : itemsOf (entry :: rest) = entry.2.contextItems.toList ++ itemsOf rest := rfl
    rw [happend, List.map_append, List.nodup_append]
    refine ⟨?_, ih hrest hnodup.2, ?_⟩
    · refine List.Nodup.map_on (fun held hmem other hother heq => ?_)
        entry.2.contextItems.nodup_toList
      obtain ⟨_, hkey⟩ := h.distinct _ _ _ (hheld held hmem) _ _ _ (hheld other hother) heq
      have hsame := hheld held hmem
      rw [hkey, hheld other hother] at hsame
      exact Prod.ext hkey (Option.some.inj hsame).symm
    · intro address hfirst other hsecond heq
      obtain ⟨held, hmem, rfl⟩ := List.mem_map.mp hfirst
      obtain ⟨_, hlater, rfl⟩ := List.mem_map.mp hsecond
      obtain ⟨_, hid, hat⟩ := at?_of_mem_itemsOf hrest hlater
      obtain ⟨hplace, _⟩ := h.distinct _ _ _ (hheld held hmem) _ _ _ hat heq
      rw [← ItemPlace.shortcut.inj hplace] at hid
      exact hnodup.1 hid

include h hentries hnodup in
theorem isActive_dropped {place : ItemPlace} {key : String} {item : ContextItem}
    (hat : qa.at? place key = some item)
    (hkept : ∀ id ∈ entries.map Prod.fst, place = .shortcut id →
      qa.orphans.get? key = none ∧ SortedMap.find key (itemsOf entries) = some item) :
    (entries.foldl dropShortcut qa).slots.isActive item.callback = true := by
  rw [foldl_dropShortcut, isActive_foldl_orphan (nodup_addresses h hentries hnodup)]
  · exact h.active place key item hat
  · intro entry hentry haddress
    obtain ⟨id, hid, hheld⟩ := at?_of_mem_itemsOf hentries hentry
    obtain ⟨hplace, hkey⟩ := h.distinct _ _ _ hheld _ _ _ hat haddress
    obtain ⟨hfree, hfind⟩ := hkept id hid hplace.symm
    rw [← hplace, ← hkey, hheld] at hat
    have hfree' : (qa.withShortcuts ((entries.map Prod.fst).foldl SortedMap.erase
        qa.shortcuts)).orphans.get? entry.1 = none := by rw [hkey]; exact hfree
    rw [hfree', hkey, Option.none_or, hfind]
    exact ⟨hat.symm, rfl⟩

include h hentries hnodup in
theorem Arranged.dropped : Arranged (entries.foldl dropShortcut qa) := by
  have hshortcut : ∀ id key item,
      (entries.foldl dropShortcut qa).at? (.shortcut id) key = some item →
        id ∉ entries.map Prod.fst ∧ qa.at? (.shortcut id) key = some item := by
    intro id key item hat
    rw [shortcut_dropped] at hat
    split at hat
    · cases hat
    next hid => exact ⟨hid, hat⟩
  have horphan : ∀ key item, (entries.foldl dropShortcut qa).at? .orphanage key = some item →
      qa.at? .orphanage key = some item ∨ qa.orphans.get? key = none ∧
        SortedMap.find key (itemsOf entries) = some item := by
    intro key item hat
    rw [orphanage_dropped, Option.or_eq_some_iff] at hat
    exact hat
  have hnotBoth : ∀ id key item,
      (entries.foldl dropShortcut qa).at? (.shortcut id) key = some item →
      (entries.foldl dropShortcut qa).at? .orphanage key ≠ some item := by
    intro id key item hheld horphaned
    obtain ⟨hid, hold⟩ := hshortcut id key item hheld
    rcases horphan key item horphaned with hwas | ⟨_, hfind⟩
    · exact ItemPlace.noConfusion (h.distinct _ _ _ hold _ _ _ hwas rfl).1
    · obtain ⟨other, hother, hat⟩ := at?_of_find_itemsOf hentries hfind
      have hsame := (h.distinct _ _ _ hold _ _ _ hat rfl).1
      rw [← ItemPlace.shortcut.inj hsame] at hother
      exact hid hother
  refine h.of_moved ?_ ?_ ?_ ?_ ?_ ?_ ?_
  · intro place key item hat
    cases place with
    | shortcut id => exact ⟨_, (hshortcut id key item hat).2⟩
    | orphanage =>
      rcases horphan key item hat with hwas | ⟨_, hfind⟩
      · exact ⟨_, hwas⟩
      · obtain ⟨id, _, hheld⟩ := at?_of_find_itemsOf hentries hfind
        exact ⟨_, hheld⟩
  · intro place other key item hat hother
    cases place with
    | shortcut id =>
      cases other with
      | shortcut id' =>
        exact (h.distinct _ _ _ (hshortcut id key item hat).2 _ _ _
          (hshortcut id' key item hother).2 rfl).1
      | orphanage => exact absurd hother (hnotBoth id key item hat)
    | orphanage =>
      cases other with
      | shortcut id => exact absurd hat (hnotBoth id key item hother)
      | orphanage => rfl
  · intro id key item hat
    exact h.target id key item (hshortcut id key item hat).2
  · intro key item hat
    rw [shortcuts_dropped]
    rcases horphan key item hat with hwas | ⟨_, hfind⟩
    · rw [h.orphan key item hwas, ite_self]
    · obtain ⟨id, hid, hheld⟩ := at?_of_find_itemsOf hentries hfind
      rw [h.target id key item hheld, if_pos hid]
  · intro place key item hat
    cases place with
    | shortcut id =>
      obtain ⟨hid, hold⟩ := hshortcut id key item hat
      refine isActive_dropped h hentries hnodup hold fun other hother heq => ?_
      rw [← ItemPlace.shortcut.inj heq] at hother
      exact absurd hother hid
    | orphanage =>
      rcases horphan key item hat with hwas | ⟨hfree, hfind⟩
      · exact isActive_dropped h hentries hnodup hwas fun _ _ heq => ItemPlace.noConfusion heq
      · obtain ⟨id, _, hheld⟩ := at?_of_find_itemsOf hentries hfind
        exact isActive_dropped h hentries hnodup hheld fun _ _ _ => ⟨hfree, hfind⟩
  · rw [foldl_dropShortcut]
    exact (foldl_orphan_frame _ _).2.2
  · intro id shortcut hget
    have hsame : (entries.foldl dropShortcut qa).suppressed = qa.suppressed := by
      rw [foldl_dropShortcut]
      exact (foldl_orphan_frame _ _).2.1
    rw [shortcuts_dropped] at hget
    split at hget
    · cases hget
    · rw [hsame]
      exact h.suppressed id shortcut hget

include h hentries in
/-- An item of a dropped shortcut is moved exactly when its identifier is not taken; otherwise it
is nowhere, and deactivated. -/
theorem dropped_cases {id key : String} {item : ContextItem} (hid : id ∈ entries.map Prod.fst)
    (hat : qa.at? (.shortcut id) key = some item) :
    (qa.orphans.get? key).or (SortedMap.find key (itemsOf entries)) = some item ∧
        (entries.foldl dropShortcut qa).at? .orphanage key = some item ∨
      (qa.orphans.get? key).or (SortedMap.find key (itemsOf entries)) ≠ some item ∧
        (∀ place, (entries.foldl dropShortcut qa).at? place key ≠ some item) ∧
        (entries.foldl dropShortcut qa).slots.isActive item.callback = false := by
  by_cases hmoved : (qa.orphans.get? key).or (SortedMap.find key (itemsOf entries)) = some item
  · refine Or.inl ⟨hmoved, ?_⟩
    rw [orphanage_dropped]
    exact hmoved
  · refine Or.inr ⟨hmoved, fun place hplace => ?_, ?_⟩
    · cases place with
      | orphanage =>
        rw [orphanage_dropped] at hplace
        exact hmoved hplace
      | shortcut =>
        rw [shortcut_dropped] at hplace
        split at hplace
        · cases hplace
        next hother =>
          have hsame := (h.distinct _ _ _ hplace _ _ _ hat rfl).1
          rw [ItemPlace.shortcut.inj hsame] at hother
          exact hother hid
    · obtain ⟨entry, hentry, rfl⟩ := List.mem_map.mp hid
      have hmem : (key, item) ∈ itemsOf entries := by
        refine List.mem_flatMap.mpr ⟨entry, hentry, SortedMap.get?_mem ?_⟩
        rw [← at?_shortcut (hentries entry hentry)]
        exact hat
      rw [foldl_dropShortcut]
      exact displaced_inactive hmem hmoved

end Dropped

end QuickAccess

end Nexus.UiHost
