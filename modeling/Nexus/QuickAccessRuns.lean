import Mathlib.Data.List.Induction
import Nexus.QuickAccessLimits
import Nexus.QuickAccessMoves

namespace Nexus.UiHost

namespace QuickAccess

structure Added (qa next : QuickAccess) (place : ItemPlace) (item : ContextItem) : Prop where
  held : ∀ other key, next.at? other key =
    if other = place ∧ key = item.id then some item else qa.at? other key
  place : place = .orphanage ∧ qa.shortcuts.get? item.target = none ∨ place = .shortcut item.target
  slots : ∃ callback maximumPanics,
    qa.slots.allocate callback maximumPanics = (item.callback, next.slots)
  shortcuts : ∀ id, (next.shortcuts.get? id).map Shortcut.suppressed =
    (qa.shortcuts.get? id).map Shortcut.suppressed
  suppressed : next.suppressed = qa.suppressed

theorem Arranged.added {qa next : QuickAccess} (h : Arranged qa) {place : ItemPlace}
    {item : ContextItem} (ha : Added qa next place item) : Arranged next := by
  obtain ⟨callback, maximumPanics, hallocated⟩ := ha.slots
  have haddress : item.callback.address = qa.slots.next :=
    (congrArg (fun result => result.1.address) hallocated).symm
  have hnext : next.slots.next = qa.slots.next + 1 :=
    (congrArg (fun result => result.2.next) hallocated).symm
  have hactive (slot : CallbackSlot) : next.slots.isActive slot =
      if slot.address = qa.slots.next then true else qa.slots.isActive slot := by
    have hslots : next.slots = (qa.slots.allocate callback maximumPanics).2 :=
      (congrArg Prod.snd hallocated).symm
    rw [hslots]
    unfold CallbackSlots.isActive CallbackSlots.allocate
    by_cases heq : slot.address = qa.slots.next <;> simp [heq]
  have hcases : ∀ other key found, next.at? other key = some found →
      other = place ∧ key = item.id ∧ found = item ∨ qa.at? other key = some found := by
    intro other key found hat
    rw [ha.held] at hat
    split at hat
    next heq => exact Or.inl ⟨heq.1, heq.2, (Option.some.inj hat).symm⟩
    next => exact Or.inr hat
  have hnone : ∀ id, qa.shortcuts.get? id = none → next.shortcuts.get? id = none := by
    intro id hid
    have hsame := ha.shortcuts id
    rw [hid, Option.map_none, Option.map_eq_none_iff] at hsame
    exact hsame
  refine ⟨fun other key found hat => ?_, fun id key found hat => ?_, fun key found hat => ?_,
    fun other key found hat other' key' found' hat' heq => ?_, fun other key found hat => ?_,
    fun other key found hat => ?_, fun id shortcut hget => ?_⟩
  · rcases hcases other key found hat with ⟨_, rfl, rfl⟩ | hold
    · rfl
    · exact h.itemId other key found hold
  · rcases hcases (.shortcut id) key found hat with ⟨hplace, _, rfl⟩ | hold
    · rcases ha.place with ⟨horphanage, _⟩ | hshortcut
      · rw [horphanage] at hplace
        cases hplace
      · rw [hshortcut] at hplace
        exact (ItemPlace.shortcut.inj hplace).symm
    · exact h.target id key found hold
  · rcases hcases .orphanage key found hat with ⟨hplace, _, rfl⟩ | hold
    · rcases ha.place with ⟨_, hfree⟩ | hshortcut
      · exact hnone _ hfree
      · rw [hshortcut] at hplace
        cases hplace
    · exact hnone _ (h.orphan key found hold)
  · rcases hcases other key found hat with ⟨rfl, rfl, rfl⟩ | hold
    · rcases hcases other' key' found' hat' with ⟨rfl, rfl, rfl⟩ | hold'
      · exact ⟨rfl, rfl⟩
      · have hlt := h.allocated other' key' found' hold'
        omega
    · rcases hcases other' key' found' hat' with ⟨rfl, rfl, rfl⟩ | hold'
      · have hlt := h.allocated other key found hold
        omega
      · exact h.distinct _ _ _ hold _ _ _ hold' heq
  · rw [hactive]
    split
    · rfl
    next hne =>
      rcases hcases other key found hat with ⟨_, _, rfl⟩ | hold
      · exact absurd haddress hne
      · exact h.active other key found hold
  · rw [hnext]
    rcases hcases other key found hat with ⟨_, _, rfl⟩ | hold
    · omega
    · have hlt := h.allocated other key found hold
      omega
  · have hsame := ha.shortcuts id
    rw [hget, Option.map_some] at hsame
    obtain ⟨old, hold, heq⟩ := Option.map_eq_some_iff.mp hsame.symm
    rw [ha.suppressed, ← heq]
    exact h.suppressed id old hold

theorem added_placeItem (qa : QuickAccess) (id target : String) (callback : UiCallback)
    (maximumPanics : Nat) :
    ∃ place, Added qa
      (placeItem { qa with slots := (qa.slots.allocate callback maximumPanics).2 }
        ⟨id, target, (qa.slots.allocate callback maximumPanics).1⟩).2
      place ⟨id, target, (qa.slots.allocate callback maximumPanics).1⟩ := by
  generalize hitem : (⟨id, target, (qa.slots.allocate callback maximumPanics).1⟩ : ContextItem) =
    item
  generalize hqa : { qa with slots := (qa.slots.allocate callback maximumPanics).2 } = allocated
  have hallocated : qa.slots.allocate callback maximumPanics = (item.callback, allocated.slots) := by
    rw [← hitem, ← hqa]
  have hshortcuts : allocated.shortcuts = qa.shortcuts := by rw [← hqa]
  have horphans : allocated.orphans = qa.orphans := by rw [← hqa]
  have hsuppressed : allocated.suppressed = qa.suppressed := by rw [← hqa]
  have htarget : item.target = target := by rw [← hitem]
  unfold placeItem
  rw [hshortcuts, htarget]
  split
  next shortcut hget =>
    have hput (other : String) : (allocated.putShortcut target { shortcut with
        contextItems := shortcut.contextItems.put item.id item }).shortcuts.get? other =
        if other = target then some { shortcut with
          contextItems := shortcut.contextItems.put item.id item }
        else qa.shortcuts.get? other := by
      rw [← hshortcuts]
      exact SortedMap.get?_put ..
    refine ⟨.shortcut target, fun other key => ?_, Or.inr (by rw [htarget]),
      ⟨callback, maximumPanics, hallocated⟩, fun other => ?_, hsuppressed⟩
    · cases other with
      | orphanage =>
        rw [if_neg (by simp)]
        show allocated.orphans.get? key = _
        rw [horphans]
        rfl
      | shortcut other =>
        by_cases hother : other = target
        · subst hother
          rw [at?_shortcut ((hput other).trans (if_pos rfl)), at?_shortcut hget,
            SortedMap.get?_put]
          simp
        · show (SortedMap.get? _ other).bind _ = _
          rw [hput, if_neg hother, if_neg (by simp [hother])]
          rfl
    · rw [hput]
      split
      next heq => rw [heq, hget]; rfl
      next => rfl
  next hget =>
    refine ⟨.orphanage, fun other key => ?_, Or.inl ⟨rfl, by rw [htarget]; exact hget⟩,
      ⟨callback, maximumPanics, hallocated⟩, fun _ => rfl, hsuppressed⟩
    cases other with
    | orphanage =>
      show (allocated.orphans.put item.id item).get? key = _
      rw [SortedMap.get?_put, horphans]
      simp only [true_and]
      rfl
    | shortcut =>
      rw [if_neg (by simp)]
      rfl

structure Sound (config : QuickAccessConfig) (qa : QuickAccess) : Prop where
  arranged : Arranged qa
  within : Within config qa

variable {config : QuickAccessConfig} {qa : QuickAccess}

theorem Sound.bump (h : Sound config qa) : Sound config qa.bump := ⟨h.arranged.bump, h.within.bump⟩

theorem Sound.insertShortcut (h : Sound config qa) {owner : OwnerHandle}
    {id texture hoverTexture inputBind tooltip : String} {outcome : ShortcutRegistrationOutcome}
    {inserted : QuickAccess}
    (hok : QuickAccess.insertShortcut config owner id texture hoverTexture inputBind tooltip qa =
      .ok (outcome, inserted)) : Sound config inserted.reparentOrphans.2 := by
  unfold QuickAccess.insertShortcut at hok
  split at hok
  · cases hok
    rw [reparentOrphans_arranged h.arranged]
    exact h
  next hnew =>
  rw [Option.not_isSome_iff_eq_none] at hnew
  split at hok
  · cases hok
  next =>
  cases hok
  refine ⟨h.arranged.registered hnew rfl rfl, Within.reparentOrphans ⟨?_, ?_, ?_, ?_⟩⟩
  · show (qa.shortcuts.put id _).toList.length ≤ _
    have hput := SortedMap.length_put_le qa.shortcuts id ⟨owner, id, texture, hoverTexture,
      inputBind, tooltip, (qa.suppressed.get? id).isSome, .empty, []⟩
    omega
  · have hcount := h.within.contextItems
    rw [contextCount_eq] at hcount ⊢
    show qa.orphans.toList.length + (qa.shortcuts.put id _).total itemCount ≤ _
    rw [SortedMap.total_put, SortedMap.erase_of_absent hnew]
    unfold itemCount at hcount ⊢
    exact (Nat.add_le_add_left (le_of_eq (Nat.zero_add _)) _).trans hcount
  · intro other found hfound
    have hput : (qa.shortcuts.put id ⟨owner, id, texture, hoverTexture, inputBind, tooltip,
        (qa.suppressed.get? id).isSome, .empty, []⟩).get? other = some found := hfound
    rw [SortedMap.get?_put] at hput
    split at hput
    · cases hput
      exact Nat.zero_le _
    · exact h.within.notifications other found hput
  · exact h.within.suppressed

theorem Sound.addShortcut (h : Sound config qa) (entered : Bool) (owner : OwnerHandle)
    (id texture hoverTexture inputBind tooltip : String) :
    Sound config (QuickAccess.addShortcut config entered owner id texture hoverTexture inputBind
      tooltip qa).2 := by
  unfold QuickAccess.addShortcut
  split
  · exact h
  split
  · exact h
  split
  · exact h
  next hok => exact (h.insertShortcut hok).bump

theorem Sound.dropShortcut (h : Sound config qa) {id : String} {shortcut : Shortcut}
    (hget : qa.shortcuts.get? id = some shortcut) :
    Sound config (qa.dropShortcut (id, shortcut)) := by
  have hentries : ∀ entry ∈ [(id, shortcut)], qa.shortcuts.get? entry.1 = some entry.2 := by
    intro entry hentry
    rw [List.mem_singleton.mp hentry]
    exact hget
  exact ⟨h.arranged.dropped hentries (List.nodup_singleton id), h.within.dropShortcut hget⟩

theorem Sound.removeShortcut (h : Sound config qa) (id : String) :
    Sound config (QuickAccess.removeShortcut config id qa).2 := by
  unfold QuickAccess.removeShortcut
  split
  · exact h
  split
  · exact h.bump
  next hget => exact (h.dropShortcut hget).bump

theorem Sound.removeShortcutForOwner (h : Sound config qa) (entered : Bool) (owner : OwnerHandle)
    (id : String) :
    Sound config (QuickAccess.removeShortcutForOwner config entered owner id qa).2 := by
  unfold QuickAccess.removeShortcutForOwner
  split
  · exact h
  split
  · exact h
  split
  · exact h
  next hget =>
    split
    · exact (h.dropShortcut hget).bump
    · exact h

theorem Sound.addContextItem (h : Sound config qa) (entered : Bool) (id target : String)
    (callback : UiCallback) :
    Sound config (QuickAccess.addContextItem config entered id target callback qa).2 := by
  unfold QuickAccess.addContextItem
  split
  · exact h
  split
  · exact h
  split
  · exact h.bump
  split
  · exact h
  next hroom =>
    obtain ⟨_, hadded⟩ := added_placeItem qa id target callback
      config.maximumPanicsPerCallback
    have hwithin : Within config { qa with
        slots := (qa.slots.allocate callback config.maximumPanicsPerCallback).2 } :=
      ⟨h.within.shortcuts, h.within.contextItems, h.within.notifications, h.within.suppressed⟩
    exact Sound.bump ⟨h.arranged.added hadded, hwithin.placeItem (not_le.mp hroom)⟩

theorem Sound.takeItems (h : Sound config qa) (removes : ContextItem → Bool) (id : String) :
    Sound config (qa.takeItems removes id) :=
  ⟨h.arranged.taken (taken_takeItems qa removes id), h.within.takeItems removes id⟩

theorem Sound.removeContextItem (h : Sound config qa) (id : String) :
    Sound config (QuickAccess.removeContextItem config id qa).2 := by
  unfold QuickAccess.removeContextItem
  split
  · exact h
  · exact (h.takeItems _ id).bump

theorem Sound.removeContextItemForOwner (h : Sound config qa) (entered : Bool)
    (owner : OwnerHandle) (id : String) :
    Sound config (QuickAccess.removeContextItemForOwner config entered owner id qa).2 := by
  unfold QuickAccess.removeContextItemForOwner
  split
  · exact h
  split
  · exact h
  dsimp only
  split
  · exact (h.takeItems _ id).bump
  · exact h.takeItems _ id

theorem Sound.putNotifications (h : Sound config qa) {id : String} {shortcut : Shortcut}
    (hget : qa.shortcuts.get? id = some shortcut) {notifications : List Notification}
    (hlength : notifications.length ≤ config.maximumNotificationsPerShortcut) :
    Sound config (qa.putShortcut id { shortcut with notifications }) :=
  ⟨h.arranged.putShortcut hget rfl rfl, h.within.putShortcut hget (le_refl _) hlength⟩

theorem Sound.pushNotification (h : Sound config qa) (entered : Bool) (owner : OwnerHandle)
    (shortcutId key : String) :
    Sound config (QuickAccess.pushNotification config entered owner shortcutId key qa).2 := by
  unfold QuickAccess.pushNotification
  split
  · exact h
  split
  · exact h
  split
  · exact h
  next hget =>
  split
  · exact h
  split
  · exact h
  next hroom =>
    refine (h.putNotifications hget ?_).bump
    rw [List.length_append]
    exact not_le.mp hroom

theorem Sound.popNotification (h : Sound config qa) (shortcutId key : String) :
    Sound config (QuickAccess.popNotification config shortcutId key qa).2 := by
  unfold QuickAccess.popNotification
  split
  · exact h
  split
  · exact h
  next hget =>
  split
  · exact h
  next =>
    refine (h.putNotifications hget ?_).bump
    exact (List.length_eraseIdx_le ..).trans (h.within.notifications _ _ hget)

theorem Sound.withSuppressed (h : Sound config qa) {id : String} {flag : Bool}
    {suppressed : SortedMap String Unit}
    (hset : ∀ other, (suppressed.get? other).isSome =
      if other = id then flag else (qa.suppressed.get? other).isSome)
    (hlength : suppressed.toList.length ≤ config.maximumSuppressedIdentifiers)
    {next : QuickAccess} (hsuppressed : next.suppressed = suppressed)
    (hshortcuts : ∀ other, next.shortcuts.get? other = (qa.shortcuts.get? other).map fun shortcut =>
      if other = id then { shortcut with suppressed := flag } else shortcut)
    (horphans : next.orphans = qa.orphans) (hslots : next.slots = qa.slots)
    (hcount : next.shortcuts.toList.length = qa.shortcuts.toList.length ∧
      next.shortcuts.total itemCount = qa.shortcuts.total itemCount) : Sound config next := by
  have hsame : ∀ place key, next.at? place key = qa.at? place key := by
    intro place key
    cases place with
    | orphanage => exact congrArg (fun map => SortedMap.get? map key) horphans
    | shortcut other =>
      show (next.shortcuts.get? other).bind _ = (qa.shortcuts.get? other).bind _
      rw [hshortcuts]
      rcases qa.shortcuts.get? other with _ | shortcut
      · rfl
      · rw [Option.map_some, Option.bind_some, Option.bind_some]
        split <;> rfl
  constructor
  · refine h.arranged.of_moved (fun place key item hat => ⟨place, hsame place key ▸ hat⟩) ?_ ?_ ?_ ?_
      (congrArg CallbackSlots.next hslots) ?_
    · intro place other key item hat hother
      rw [hsame] at hat hother
      exact (h.arranged.distinct _ _ _ hat _ _ _ hother rfl).1
    · intro other key item hat
      rw [hsame] at hat
      exact h.arranged.target other key item hat
    · intro key item horphan
      rw [horphans] at horphan
      rw [hshortcuts, h.arranged.orphan key item horphan, Option.map_none]
    · intro place key item hat
      rw [hsame] at hat
      rw [hslots]
      exact h.arranged.active place key item hat
    · intro other shortcut hget
      rw [hshortcuts] at hget
      obtain ⟨old, hold, rfl⟩ := Option.map_eq_some_iff.mp hget
      rw [hsuppressed, hset]
      split
      · rfl
      · exact h.arranged.suppressed other old hold
  · refine ⟨hcount.1.trans_le h.within.shortcuts, ?_, fun other shortcut hget => ?_, ?_⟩
    · have hitems := h.within.contextItems
      rw [contextCount_eq] at hitems ⊢
      rw [horphans, hcount.2]
      exact hitems
    · rw [hshortcuts] at hget
      obtain ⟨old, hold, rfl⟩ := Option.map_eq_some_iff.mp hget
      have hold := h.within.notifications other old hold
      split <;> exact hold
    · rw [hsuppressed]
      exact hlength

theorem Sound.setSuppressed (h : Sound config qa) (id : String) (flag : Bool) :
    Sound config (QuickAccess.setSuppressed config id flag qa).2 := by
  unfold QuickAccess.setSuppressed
  split
  · exact h
  split
  · exact h
  next hroom =>
  dsimp only
  generalize hset : (if flag then qa.suppressed.put id () else qa.suppressed.erase id) = suppressed
  have hget (other : String) : (suppressed.get? other).isSome =
      if other = id then flag else (qa.suppressed.get? other).isSome := by
    rw [← hset]
    cases flag with
    | true =>
      rw [if_pos rfl, SortedMap.get?_put]
      split <;> rfl
    | false =>
      rw [if_neg Bool.false_ne_true, SortedMap.get?_erase]
      split <;> rfl
  have hlength : suppressed.toList.length ≤ config.maximumSuppressedIdentifiers := by
    have hwas := h.within.suppressed
    rw [← hset]
    cases flag with
    | true =>
      rw [if_pos rfl]
      rcases hold : qa.suppressed.get? id with _ | _
      · rw [hold] at hroom
        have hput := SortedMap.length_put_le qa.suppressed id ()
        simp at hroom
        omega
      · rw [SortedMap.length_put_of_get? hold]
        exact hwas
    | false =>
      rw [if_neg Bool.false_ne_true]
      exact (SortedMap.length_erase_le ..).trans hwas
  split
  next shortcut hshortcut =>
    refine (h.withSuppressed hget hlength (by rfl) (fun other => ?_) (by rfl) (by rfl)
      ⟨?_, ?_⟩).bump
    · show (qa.shortcuts.put id { shortcut with suppressed := flag }).get? other = _
      rw [SortedMap.get?_put]
      by_cases hother : other = id
      · rw [hother, hshortcut, if_pos rfl, Option.map_some, if_pos rfl]
      · rw [if_neg hother]
        simp [hother]
    · exact SortedMap.length_put_of_get? hshortcut _
    · show (qa.shortcuts.put id { shortcut with suppressed := flag }).total itemCount = _
      rw [SortedMap.total_put, SortedMap.total_erase itemCount hshortcut]
      rfl
  next hshortcut =>
    refine (h.withSuppressed hget hlength (by rfl) (fun other => ?_) (by rfl) (by rfl)
      ⟨by rfl, by rfl⟩).bump
    by_cases hother : other = id
    · rw [hother, hshortcut]
      rfl
    · simp [hother]

theorem Sound.setSettings (h : Sound config qa) (settings : QuickAccessSettings) :
    Sound config (qa.setSettings settings) :=
  Sound.bump ⟨⟨h.arranged.itemId, h.arranged.target, h.arranged.orphan, h.arranged.distinct,
    h.arranged.active, h.arranged.allocated, h.arranged.suppressed⟩,
    ⟨h.within.shortcuts, h.within.contextItems, h.within.notifications, h.within.suppressed⟩⟩

theorem mem_ownedShortcuts {qa : QuickAccess} {owner : OwnerGeneration}
    {entry : String × Shortcut} : entry ∈ qa.ownedShortcuts owner ↔
      qa.shortcuts.get? entry.1 = some entry.2 ∧ entry.2.owner.identity = owner := by
  obtain ⟨_, _⟩ := entry
  unfold ownedShortcuts
  rw [List.mem_filter, SortedMap.mem_toList_iff, decide_eq_true_eq]

theorem ownedShortcuts_sorted (qa : QuickAccess) (owner : OwnerGeneration) :
    ((qa.ownedShortcuts owner).map Prod.fst).Pairwise (· < ·) :=
  qa.shortcuts.sorted.sublist (List.filter_sublist.map Prod.fst)

theorem Sound.cleanupOwnerGeneration (h : Sound config qa) (owner : OwnerGeneration) :
    Sound config (QuickAccess.cleanupOwnerGeneration owner qa).2 := by
  have hleft : Sound config (qa.dropOwnerItems owner) :=
    ⟨h.arranged.taken (taken_dropOwnerItems qa owner), h.within.dropOwnerItems owner⟩
  have hentries : ∀ entry ∈ (qa.dropOwnerItems owner).ownedShortcuts owner,
      (qa.dropOwnerItems owner).shortcuts.get? entry.1 = some entry.2 :=
    fun entry hentry => (mem_ownedShortcuts.mp hentry).1
  have hnodup : (((qa.dropOwnerItems owner).ownedShortcuts owner).map Prod.fst).Nodup :=
    (ownedShortcuts_sorted _ owner).imp fun hlt => ne_of_lt hlt
  have hnext : Sound config (((qa.dropOwnerItems owner).ownedShortcuts owner).foldl
      QuickAccess.dropShortcut (qa.dropOwnerItems owner)) :=
    ⟨hleft.arranged.dropped hentries hnodup, hleft.within.foldl_dropShortcut hentries hnodup⟩
  unfold QuickAccess.cleanupOwnerGeneration
  dsimp only
  split
  · exact hnext
  · exact hnext.bump

end QuickAccess

inductive QuickAccessOp where
  | addShortcut (entered : Bool) (owner : OwnerHandle)
      (id texture hoverTexture inputBind tooltip : String)
  | removeShortcut (id : String)
  | removeShortcutForOwner (entered : Bool) (owner : OwnerHandle) (id : String)
  | addContextItem (entered : Bool) (id target : String) (callback : UiCallback)
  | removeContextItem (id : String)
  | removeContextItemForOwner (entered : Bool) (owner : OwnerHandle) (id : String)
  | pushNotification (entered : Bool) (owner : OwnerHandle) (shortcutId key : String)
  | popNotification (shortcutId key : String)
  | setSuppressed (id : String) (suppressed : Bool)
  | setSettings (settings : QuickAccessSettings)
  | cleanupOwnerGeneration (owner : OwnerGeneration)

namespace QuickAccessOp

open QuickAccess

def step (config : QuickAccessConfig) (qa : QuickAccess) : QuickAccessOp → QuickAccess
  | addShortcut entered owner id texture hoverTexture inputBind tooltip =>
    (QuickAccess.addShortcut config entered owner id texture hoverTexture inputBind tooltip qa).2
  | removeShortcut id => (QuickAccess.removeShortcut config id qa).2
  | removeShortcutForOwner entered owner id =>
    (QuickAccess.removeShortcutForOwner config entered owner id qa).2
  | addContextItem entered id target callback =>
    (QuickAccess.addContextItem config entered id target callback qa).2
  | removeContextItem id => (QuickAccess.removeContextItem config id qa).2
  | removeContextItemForOwner entered owner id =>
    (QuickAccess.removeContextItemForOwner config entered owner id qa).2
  | pushNotification entered owner shortcutId key =>
    (QuickAccess.pushNotification config entered owner shortcutId key qa).2
  | popNotification shortcutId key => (QuickAccess.popNotification config shortcutId key qa).2
  | setSuppressed id suppressed => (QuickAccess.setSuppressed config id suppressed qa).2
  | setSettings settings => QuickAccess.setSettings settings qa
  | cleanupOwnerGeneration owner => (QuickAccess.cleanupOwnerGeneration owner qa).2

def run (config : QuickAccessConfig) (slots : CallbackSlots) (ops : List QuickAccessOp) :
    QuickAccess := ops.foldl (step config) (.new slots)

theorem sound_step {config : QuickAccessConfig} {qa : QuickAccess} (h : Sound config qa)
    (op : QuickAccessOp) : Sound config (op.step config qa) := by
  cases op with
  | addShortcut entered owner id texture hoverTexture inputBind tooltip =>
    exact h.addShortcut entered owner id texture hoverTexture inputBind tooltip
  | removeShortcut id => exact h.removeShortcut id
  | removeShortcutForOwner entered owner id => exact h.removeShortcutForOwner entered owner id
  | addContextItem entered id target callback => exact h.addContextItem entered id target callback
  | removeContextItem id => exact h.removeContextItem id
  | removeContextItemForOwner entered owner id =>
    exact h.removeContextItemForOwner entered owner id
  | pushNotification entered owner shortcutId key =>
    exact h.pushNotification entered owner shortcutId key
  | popNotification shortcutId key => exact h.popNotification shortcutId key
  | setSuppressed id suppressed => exact h.setSuppressed id suppressed
  | setSettings settings => exact h.setSettings settings
  | cleanupOwnerGeneration owner => exact h.cleanupOwnerGeneration owner

theorem sound_run (config : QuickAccessConfig) (slots : CallbackSlots) (ops : List QuickAccessOp) :
    Sound config (run config slots ops) := by
  unfold run
  induction ops using List.reverseRecOn with
  | nil => exact ⟨Arranged.new slots, Within.new slots⟩
  | append_singleton _ op ih =>
    rw [List.foldl_append]
    exact sound_step ih op

end QuickAccessOp

end Nexus.UiHost
