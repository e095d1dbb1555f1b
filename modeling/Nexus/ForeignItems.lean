import Mathlib.Order.Defs.LinearOrder
import Nexus.QuickAccessRuns

namespace Nexus.UiHost

namespace QuickAccess

/-- The item is held once, by its target or as an orphan, and its slot is active. -/
structure Present (qa : QuickAccess) (item : ContextItem) : Prop where
  once : ∃! place : ItemPlace × String, qa.at? place.1 place.2 = some item
  place : ∀ place key, qa.at? place key = some item →
    place = .orphanage ∨ place = .shortcut item.target
  active : qa.slots.isActive item.callback = true

/-- The item is held nowhere, its slot is not active and an orphan has its identifier. -/
structure Displaced (qa : QuickAccess) (item : ContextItem) : Prop where
  nowhere : ∀ place key, qa.at? place key ≠ some item
  inactive : qa.slots.isActive item.callback = false
  holder : ∃ other, qa.at? .orphanage item.id = some other

theorem Arranged.present {qa : QuickAccess} (h : Arranged qa) {place : ItemPlace} {key : String}
    {item : ContextItem} (hat : qa.at? place key = some item) : Present qa item where
  once := by
    refine ⟨(place, key), hat, fun other hother => ?_⟩
    obtain ⟨hplace, hkey⟩ := h.distinct _ _ _ hother _ _ _ hat rfl
    exact Prod.ext hplace hkey
  place := by
    intro other otherKey hother
    cases other with
    | orphanage => exact Or.inl rfl
    | shortcut id => exact Or.inr (by rw [h.target id otherKey item hother])
  active := h.active place key item hat

theorem first_itemsOf {entries : List (String × Shortcut)}
    (hsorted : (entries.map Prod.fst).Pairwise (· < ·)) {key : String} {item : ContextItem}
    (h : SortedMap.find key (itemsOf entries) = some item) :
    ∃ entry ∈ entries, entry.2.contextItems.get? key = some item ∧
      ∀ other ∈ entries, other.1 < entry.1 → other.2.contextItems.get? key = none := by
  induction entries with
  | nil => cases h
  | cons entry rest ih =>
    rw [List.map_cons, List.pairwise_cons] at hsorted
    have hlater : ∀ other ∈ rest, entry.1 < other.1 := fun other hother =>
      hsorted.1 other.1 (List.mem_map_of_mem hother)
    have happend : itemsOf (entry :: rest) = entry.2.contextItems.toList ++ itemsOf rest := rfl
    rw [happend, SortedMap.find_append, Option.or_eq_some_iff] at h
    rcases h with hfirst | ⟨hnone, hrest⟩
    · refine ⟨entry, List.mem_cons_self, hfirst, fun other hother hlt => ?_⟩
      rcases List.mem_cons.mp hother with rfl | hmem
      · exact absurd hlt (lt_irrefl _)
      · exact absurd hlt (lt_asymm (hlater other hmem))
    · obtain ⟨found, hfound, hget, hbefore⟩ := ih hsorted.2 hrest
      refine ⟨found, List.mem_cons_of_mem _ hfound, hget, fun other hother hlt => ?_⟩
      rcases List.mem_cons.mp hother with rfl | hmem
      · exact hnone
      · exact hbefore other hmem hlt

def TakenBefore (qa : QuickAccess) (entries : List (String × Shortcut)) (id key : String) : Prop :=
  (qa.orphans.get? key).isSome = true ∨
    ∃ other ∈ entries, other.1 < id ∧ (other.2.contextItems.get? key).isSome = true

section Dropped

variable {qa : QuickAccess} {entries : List (String × Shortcut)}
  (h : Arranged qa) (hentries : ∀ entry ∈ entries, qa.shortcuts.get? entry.1 = some entry.2)
  (hsorted : (entries.map Prod.fst).Pairwise (· < ·))

include h hentries hsorted in
theorem moved_iff {id key : String} {item : ContextItem} (hid : id ∈ entries.map Prod.fst)
    (hat : qa.at? (.shortcut id) key = some item) :
    (qa.orphans.get? key).or (SortedMap.find key (itemsOf entries)) = some item ↔
      ¬TakenBefore qa entries id key := by
  obtain ⟨entry, hentry, rfl⟩ := List.mem_map.mp hid
  have hget : entry.2.contextItems.get? key = some item := by
    rw [← at?_shortcut (hentries entry hentry)]
    exact hat
  have hheld : ∀ other ∈ entries, ∀ found, other.2.contextItems.get? key = some found →
      qa.at? (.shortcut other.1) key = some found := by
    intro other hother found hfound
    rw [at?_shortcut (hentries other hother)]
    exact hfound
  constructor
  · intro hmoved htaken
    rcases Option.or_eq_some_iff.mp hmoved with horphan | ⟨hfree, hfind⟩
    · exact ItemPlace.noConfusion (h.distinct _ _ _ hat .orphanage _ _ horphan rfl).1
    · obtain ⟨first, hfirst, hfound, hbefore⟩ := first_itemsOf hsorted hfind
      have hsame := (h.distinct _ _ _ hat _ _ _ (hheld first hfirst item hfound) rfl).1
      rcases htaken with hsome | ⟨other, hother, hlt, hsome⟩
      · rw [hfree] at hsome
        cases hsome
      · rw [ItemPlace.shortcut.inj hsame] at hlt
        rw [hbefore other hother hlt] at hsome
        cases hsome
  · intro hfree
    have horphan : qa.orphans.get? key = none := by
      rw [← Option.not_isSome_iff_eq_none]
      exact fun hsome => hfree (Or.inl hsome)
    have hearlier : ∀ other ∈ entries, other.1 < entry.1 →
        other.2.contextItems.get? key = none := by
      intro other hother hlt
      rw [← Option.not_isSome_iff_eq_none]
      exact fun hsome => hfree (Or.inr ⟨other, hother, hlt, hsome⟩)
    rw [horphan, Option.none_or]
    rcases hfind : SortedMap.find key (itemsOf entries) with _ | found
    · exact absurd hfind (SortedMap.find_ne_none (List.mem_flatMap.mpr
        ⟨entry, hentry, SortedMap.get?_mem hget⟩))
    · obtain ⟨first, hfirst, hfound, hbefore⟩ := first_itemsOf hsorted hfind
      rcases lt_trichotomy first.1 entry.1 with hlt | heq | hlt
      · rw [hearlier first hfirst hlt] at hfound
        cases hfound
      · have hsame := hheld first hfirst found hfound
        rw [heq, hat] at hsame
        exact hsame.symm
      · rw [hbefore entry hentry hlt] at hget
        cases hget

include h hentries hsorted in
theorem dropped_keeps {place : ItemPlace} {key : String} {item : ContextItem}
    (hat : qa.at? place key = some item) :
    let next := entries.foldl dropShortcut qa
    let displaced := ∃ id ∈ entries.map Prod.fst, place = .shortcut id ∧ TakenBefore qa entries id key
    (¬displaced → Present next item) ∧ (displaced → Displaced next item) := by
  dsimp only
  have hnodup : (entries.map Prod.fst).Nodup := hsorted.imp fun hlt => ne_of_lt hlt
  have hnext : Arranged (entries.foldl dropShortcut qa) := h.dropped hentries hnodup
  constructor
  · intro hkept
    cases place with
    | orphanage =>
      have hstays : (entries.foldl dropShortcut qa).at? .orphanage key = some item := by
        rw [orphanage_dropped]
        show (qa.at? .orphanage key).or _ = some item
        rw [hat, Option.some_or]
      exact hnext.present hstays
    | shortcut id =>
      by_cases hid : id ∈ entries.map Prod.fst
      · have hmoved := (moved_iff h hentries hsorted hid hat).mpr fun htaken =>
          hkept ⟨id, hid, rfl, htaken⟩
        rw [← orphanage_dropped] at hmoved
        exact hnext.present hmoved
      · have hstays : (entries.foldl dropShortcut qa).at? (.shortcut id) key = some item := by
          rw [shortcut_dropped, if_neg hid, hat]
        exact hnext.present hstays
  · rintro ⟨id, hid, rfl, htaken⟩
    have hnot := mt (moved_iff h hentries hsorted hid hat).mp (not_not_intro htaken)
    rcases dropped_cases h hentries hid hat with ⟨hmoved, _⟩ | ⟨_, hnowhere, hinactive⟩
    · exact absurd hmoved hnot
    · refine ⟨fun other otherKey hother => ?_, hinactive, ?_⟩
      · have hkey := (hnext.itemId _ _ _ hother).symm.trans (h.itemId _ _ _ hat)
        rw [hkey] at hother
        exact hnowhere other hother
      · rw [h.itemId _ _ _ hat, orphanage_dropped, ← Option.isSome_iff_exists]
        obtain ⟨entry, hentry, rfl⟩ := List.mem_map.mp hid
        have hmem : (key, item) ∈ itemsOf entries := by
          refine List.mem_flatMap.mpr ⟨entry, hentry, SortedMap.get?_mem ?_⟩
          rw [← at?_shortcut (hentries entry hentry)]
          exact hat
        rw [Option.isSome_or, Bool.or_eq_true]
        exact Or.inr (Option.isSome_iff_ne_none.mpr (SortedMap.find_ne_none hmem))

end Dropped

theorem Present.bump {qa : QuickAccess} {item : ContextItem} (h : Present qa item) :
    Present qa.bump item := ⟨h.once, h.place, h.active⟩

theorem Displaced.bump {qa : QuickAccess} {item : ContextItem} (h : Displaced qa item) :
    Displaced qa.bump item := ⟨h.nowhere, h.inactive, h.holder⟩

theorem registered_keeps {qa : QuickAccess} (h : Arranged qa) {shortcut : Shortcut}
    {target : String} (hnew : qa.shortcuts.get? target = none)
    (hempty : shortcut.contextItems = .empty)
    (hsuppressed : shortcut.suppressed = (qa.suppressed.get? target).isSome) {place : ItemPlace}
    {key : String} {item : ContextItem} (hat : qa.at? place key = some item) :
    Present (qa.putShortcut target shortcut).reparentOrphans.2 item := by
  have hnext := h.registered hnew hempty hsuppressed
  cases place with
  | orphanage =>
    have horphan : qa.orphans.get? key = some item := hat
    by_cases htarget : item.target = target
    · have hadopted : (qa.putShortcut target shortcut).reparentOrphans.2.at? (.shortcut target) key =
          some item := by
        rw [target_registered h hempty, horphan, Option.filter_eq_some_iff]
        exact ⟨rfl, decide_eq_true htarget⟩
      exact hnext.present hadopted
    · have hstays : (qa.putShortcut target shortcut).reparentOrphans.2.at? .orphanage key =
          some item := by
        rw [orphanage_registered h hempty, horphan, Option.filter_eq_some_iff]
        exact ⟨rfl, decide_eq_true htarget⟩
      exact hnext.present hstays
  | shortcut id =>
    have hid : id ≠ target := by
      rintro rfl
      obtain ⟨_, hget, _⟩ := shortcut_of_at? hat
      rw [hnew] at hget
      cases hget
    have hstays := shortcut_registered h hempty hid key
    rw [hat] at hstays
    exact hnext.present hstays

theorem dropShortcut_keeps {qa : QuickAccess} (h : Arranged qa) {id : String} {shortcut : Shortcut}
    (hget : qa.shortcuts.get? id = some shortcut) {place : ItemPlace} {key : String}
    {item : ContextItem} (hat : qa.at? place key = some item) :
    let displaced := place = .shortcut id ∧ (qa.orphans.get? key).isSome = true
    (¬displaced → Present (qa.dropShortcut (id, shortcut)) item) ∧
      (displaced → Displaced (qa.dropShortcut (id, shortcut)) item) := by
  have hentries : ∀ entry ∈ [(id, shortcut)], qa.shortcuts.get? entry.1 = some entry.2 := by
    intro entry hentry
    rw [List.mem_singleton.mp hentry]
    exact hget
  obtain ⟨hkept, hlost⟩ := dropped_keeps h hentries (List.pairwise_singleton _ _) hat
  constructor
  · intro hnot
    refine hkept ?_
    rintro ⟨other, hother, hplace, horphan | ⟨entry, hentry, hlt, _⟩⟩
    · rw [List.mem_singleton.mp hother] at hplace
      exact hnot ⟨hplace, horphan⟩
    · rw [List.mem_singleton.mp hentry, List.mem_singleton.mp hother] at hlt
      exact lt_irrefl _ hlt
  · rintro ⟨hplace, horphan⟩
    exact hlost ⟨id, List.mem_singleton.mpr rfl, hplace, Or.inl horphan⟩

theorem mem_keys_ownedShortcuts {qa : QuickAccess} {owner : OwnerGeneration} {id : String} :
    id ∈ ((qa.dropOwnerItems owner).ownedShortcuts owner).map Prod.fst ↔
      ∃ shortcut, qa.shortcuts.get? id = some shortcut ∧ shortcut.owner.identity = owner := by
  have hget : (qa.dropOwnerItems owner).shortcuts.get? id =
      (qa.shortcuts.get? id).map (Shortcut.withoutOwner owner) := SortedMap.get?_mapValues ..
  rw [List.mem_map]
  constructor
  · rintro ⟨⟨_, shortcut⟩, hmem, rfl⟩
    obtain ⟨hleft, howner⟩ := mem_ownedShortcuts.mp hmem
    rw [hget] at hleft
    obtain ⟨old, hold, rfl⟩ := Option.map_eq_some_iff.mp hleft
    exact ⟨old, hold, howner⟩
  · rintro ⟨shortcut, hold, howner⟩
    refine ⟨(id, shortcut.withoutOwner owner), mem_ownedShortcuts.mpr ⟨?_, howner⟩, rfl⟩
    rw [hget, hold, Option.map_some]

end QuickAccess

namespace QuickAccessOp

open QuickAccess

/-- The calls of an owner that move items between shortcuts and the orphanage. The host's own removal
acts for anyone. -/
def ActsFor (owner : OwnerGeneration) : QuickAccessOp → Prop
  | addShortcut _ handle _ _ _ _ _ => handle.identity = owner
  | removeShortcut _ => True
  | removeShortcutForOwner _ handle _ => handle.identity = owner
  | cleanupOwnerGeneration generation => generation = owner
  | _ => False

def Removes (config : QuickAccessConfig) (qa : QuickAccess) : QuickAccessOp → String → Prop
  | removeShortcut id, other =>
    other = id ∧ validateText "shortcut identifier" id config.maximumStringBytes = .ok ()
  | removeShortcutForOwner entered owner id, other =>
    other = id ∧ validateText "shortcut identifier" id config.maximumStringBytes = .ok () ∧
      entered = true ∧ ∃ shortcut, qa.shortcuts.get? id = some shortcut ∧
        shortcut.owner.identity = owner.identity ∧ shortcut.owner.sharesLifecycle owner = true
  | cleanupOwnerGeneration owner, other =>
    ∃ shortcut, qa.shortcuts.get? other = some shortcut ∧ shortcut.owner.identity = owner
  | _, _ => False

def Spares : QuickAccessOp → ContextItem → Prop
  | cleanupOwnerGeneration owner, item => item.owner ≠ owner
  | _, _ => True

/-- The identifier of an item of a removed shortcut is taken by an orphan that stays or by an item
that the same call moves before it. -/
def Displaces (config : QuickAccessConfig) (qa : QuickAccess) (op : QuickAccessOp)
    (place : ItemPlace) (key : String) : Prop :=
  ∃ id, place = .shortcut id ∧ op.Removes config qa id ∧
    ((∃ other, qa.orphans.get? key = some other ∧ op.Spares other) ∨
      ∃ earlier other, earlier < id ∧ op.Removes config qa earlier ∧
        qa.at? (.shortcut earlier) key = some other ∧ op.Spares other)

def Treats (config : QuickAccessConfig) (qa : QuickAccess) (op : QuickAccessOp) (place : ItemPlace)
    (key : String) (item : ContextItem) : Prop :=
  (¬Displaces config qa op place key → Present (op.step config qa) item) ∧
    (Displaces config qa op place key → Displaced (op.step config qa) item)

section Treats

variable {config : QuickAccessConfig} {qa : QuickAccess} (h : Sound config qa) {place : ItemPlace}
  {key : String} {item : ContextItem} (hat : qa.at? place key = some item)

include h hat in
theorem treats_addShortcut (entered : Bool) (owner : OwnerHandle)
    (id texture hoverTexture inputBind tooltip : String) :
    Treats config qa (.addShortcut entered owner id texture hoverTexture inputBind tooltip) place
      key item := by
  refine ⟨fun _ => ?_, fun ⟨_, _, hremoves, _⟩ => hremoves.elim⟩
  have hpresent := h.arranged.present hat
  show Present (QuickAccess.addShortcut config entered owner id texture hoverTexture inputBind
    tooltip qa).2 item
  unfold QuickAccess.addShortcut
  split
  · exact hpresent
  split
  · exact hpresent
  split
  · exact hpresent
  next hok =>
    refine Present.bump ?_
    unfold QuickAccess.insertShortcut at hok
    split at hok
    · cases hok
      rw [reparentOrphans_arranged h.arranged]
      exact hpresent
    next hnew =>
    rw [Option.not_isSome_iff_eq_none] at hnew
    split at hok
    · cases hok
    · cases hok
      exact registered_keeps h.arranged hnew rfl rfl hat

include h hat in
theorem treats_removeShortcut (id : String) :
    Treats config qa (.removeShortcut id) place key item := by
  have hstep : step config qa (.removeShortcut id) = (QuickAccess.removeShortcut config id qa).2 :=
    rfl
  unfold Treats
  rw [hstep]
  unfold QuickAccess.removeShortcut
  split
  next herror =>
    refine ⟨fun _ => h.arranged.present hat, ?_⟩
    rintro ⟨other, _, ⟨_, hvalid⟩, _⟩
    rw [herror] at hvalid
    cases hvalid
  next hvalid =>
  split
  next hnone =>
    refine ⟨fun _ => (h.arranged.present hat).bump, ?_⟩
    rintro ⟨other, rfl, ⟨rfl, _⟩, _⟩
    obtain ⟨_, hget, _⟩ := shortcut_of_at? hat
    rw [hnone] at hget
    cases hget
  next hget =>
    obtain ⟨hkept, hlost⟩ := dropShortcut_keeps h.arranged hget hat
    refine ⟨fun hnot => (hkept ?_).bump, ?_⟩
    · rintro ⟨rfl, horphan⟩
      obtain ⟨other, hother⟩ := Option.isSome_iff_exists.mp horphan
      exact hnot ⟨id, rfl, ⟨rfl, hvalid⟩, Or.inl ⟨other, hother, trivial⟩⟩
    · rintro ⟨other, rfl, ⟨rfl, _⟩, ⟨holder, hholder, _⟩ | ⟨earlier, _, hlt, ⟨rfl, _⟩, _⟩⟩
      · exact (hlost ⟨rfl, Option.isSome_of_eq_some hholder⟩).bump
      · exact absurd hlt (lt_irrefl _)

include h hat in
theorem treats_removeShortcutForOwner (entered : Bool) (owner : OwnerHandle) (id : String) :
    Treats config qa (.removeShortcutForOwner entered owner id) place key item := by
  have hstep : step config qa (.removeShortcutForOwner entered owner id) =
      (QuickAccess.removeShortcutForOwner config entered owner id qa).2 := rfl
  unfold Treats
  rw [hstep]
  unfold QuickAccess.removeShortcutForOwner
  split
  next herror =>
    refine ⟨fun _ => h.arranged.present hat, ?_⟩
    rintro ⟨other, _, ⟨_, hvalid, _⟩, _⟩
    rw [herror] at hvalid
    cases hvalid
  next hvalid =>
  split
  next hclosed =>
    refine ⟨fun _ => h.arranged.present hat, ?_⟩
    rintro ⟨other, _, ⟨_, _, hentered, _⟩, _⟩
    rw [hclosed] at hentered
    cases hentered
  next hentered =>
  rw [Bool.not_eq_false] at hentered
  split
  next hnone =>
    refine ⟨fun _ => h.arranged.present hat, ?_⟩
    rintro ⟨other, _, ⟨_, _, _, shortcut, hget, _⟩, _⟩
    rw [hnone] at hget
    cases hget
  next shortcut hget =>
  split
  next howner =>
    obtain ⟨hkept, hlost⟩ := dropShortcut_keeps h.arranged hget hat
    refine ⟨fun hnot => (hkept ?_).bump, ?_⟩
    · rintro ⟨rfl, horphan⟩
      obtain ⟨other, hother⟩ := Option.isSome_iff_exists.mp horphan
      exact hnot ⟨id, rfl, ⟨rfl, hvalid, hentered, shortcut, hget, howner⟩,
        Or.inl ⟨other, hother, trivial⟩⟩
    · rintro ⟨other, rfl, ⟨rfl, _⟩, ⟨holder, hholder, _⟩ | ⟨earlier, _, hlt, ⟨rfl, _⟩, _⟩⟩
      · exact (hlost ⟨rfl, Option.isSome_of_eq_some hholder⟩).bump
      · exact absurd hlt (lt_irrefl _)
  next hforeign =>
    refine ⟨fun _ => h.arranged.present hat, ?_⟩
    rintro ⟨other, _, ⟨_, _, _, found, hfound, howner⟩, _⟩
    rw [hget] at hfound
    cases hfound
    exact absurd howner hforeign

include h hat in
theorem treats_cleanupOwnerGeneration {owner : OwnerGeneration} (howner : item.owner ≠ owner) :
    Treats config qa (.cleanupOwnerGeneration owner) place key item := by
  have htaken := taken_dropOwnerItems qa owner
  have hleft : Arranged (qa.dropOwnerItems owner) := h.arranged.taken htaken
  have hheld : ∀ other otherKey found, (qa.dropOwnerItems owner).at? other otherKey = some found ↔
      qa.at? other otherKey = some found ∧ found.owner ≠ owner := by
    intro other otherKey found
    rw [htaken.held, Option.filter_eq_some_iff, decide_eq_true_eq]
  have hentries : ∀ entry ∈ (qa.dropOwnerItems owner).ownedShortcuts owner,
      (qa.dropOwnerItems owner).shortcuts.get? entry.1 = some entry.2 :=
    fun entry hentry => (mem_ownedShortcuts.mp hentry).1
  obtain ⟨hkept, hlost⟩ := dropped_keeps hleft hentries (ownedShortcuts_sorted _ owner)
    ((hheld place key item).mpr ⟨hat, howner⟩)
  have hsame : Displaces config qa (.cleanupOwnerGeneration owner) place key ↔
      ∃ id ∈ ((qa.dropOwnerItems owner).ownedShortcuts owner).map Prod.fst, place = .shortcut id ∧
        TakenBefore (qa.dropOwnerItems owner) ((qa.dropOwnerItems owner).ownedShortcuts owner)
          id key := by
    constructor
    · rintro ⟨id, hplace, hremoves, hbefore⟩
      refine ⟨id, mem_keys_ownedShortcuts.mpr hremoves, hplace, ?_⟩
      rcases hbefore with ⟨other, hother, hspares⟩ | ⟨_, other, hlt, hearlier, hother, hspares⟩
      · exact Or.inl (Option.isSome_of_eq_some
          ((hheld .orphanage key other).mpr ⟨hother, hspares⟩))
      · obtain ⟨entry, hentry, rfl⟩ := List.mem_map.mp (mem_keys_ownedShortcuts.mpr hearlier)
        have hstays := (hheld (.shortcut entry.1) key other).mpr ⟨hother, hspares⟩
        rw [at?_shortcut (hentries entry hentry)] at hstays
        exact Or.inr ⟨entry, hentry, hlt, Option.isSome_of_eq_some hstays⟩
    · rintro ⟨id, hid, hplace, hbefore⟩
      refine ⟨id, hplace, mem_keys_ownedShortcuts.mp hid, ?_⟩
      rcases hbefore with horphan | ⟨entry, hentry, hlt, hsome⟩
      · obtain ⟨other, hother⟩ := Option.isSome_iff_exists.mp horphan
        exact Or.inl ⟨other, (hheld .orphanage key other).mp hother⟩
      · obtain ⟨other, hother⟩ := Option.isSome_iff_exists.mp hsome
        rw [← at?_shortcut (hentries entry hentry)] at hother
        obtain ⟨hold, hspares⟩ := (hheld _ key other).mp hother
        exact Or.inr ⟨entry.1, other, hlt,
          mem_keys_ownedShortcuts.mp (List.mem_map_of_mem hentry), hold, hspares⟩
  have hstep : step config qa (.cleanupOwnerGeneration owner) =
      (QuickAccess.cleanupOwnerGeneration owner qa).2 := rfl
  unfold Treats
  rw [hsame, hstep]
  unfold QuickAccess.cleanupOwnerGeneration
  dsimp only
  split
  · exact ⟨hkept, hlost⟩
  · exact ⟨fun hnot => (hkept hnot).bump, fun hdisplaced => (hlost hdisplaced).bump⟩

end Treats

theorem treats_acts {config : QuickAccessConfig} {qa : QuickAccess} (h : Sound config qa)
    {owner : OwnerGeneration} {op : QuickAccessOp} (hacts : op.ActsFor owner) {place : ItemPlace}
    {key : String} {item : ContextItem} (hat : qa.at? place key = some item)
    (howner : item.owner ≠ owner) : op.Treats config qa place key item := by
  cases op with
  | addShortcut entered handle id texture hoverTexture inputBind tooltip =>
    exact treats_addShortcut h hat entered handle id texture hoverTexture inputBind tooltip
  | removeShortcut id => exact treats_removeShortcut h hat id
  | removeShortcutForOwner entered handle id =>
    exact treats_removeShortcutForOwner h hat entered handle id
  | cleanupOwnerGeneration generation =>
    obtain rfl : generation = owner := hacts
    exact treats_cleanupOwnerGeneration h hat howner
  | _ => exact hacts.elim

/-- In every reachable registry the orphans wait for absent shortcuts, the suppressed flags and the
limits are right, and an owner's call keeps the items of the others, except one of a removed shortcut
whose identifier is taken in the orphanage before it is moved there. -/
theorem foreign_items_kept (config : QuickAccessConfig) (slots : CallbackSlots)
    (ops : List QuickAccessOp) :
    let qa := run config slots ops
    (∀ key item, qa.orphans.get? key = some item → qa.shortcuts.get? item.target = none) ∧
      (∀ id shortcut, qa.shortcuts.get? id = some shortcut →
        shortcut.suppressed = (qa.suppressed.get? id).isSome) ∧
      Within config qa ∧
      ∀ owner (op : QuickAccessOp), op.ActsFor owner → ∀ place key item,
        qa.at? place key = some item → item.owner ≠ owner → op.Treats config qa place key item := by
  have h := sound_run config slots ops
  exact ⟨h.arranged.orphan, h.arranged.suppressed, h.within,
    fun owner op hacts place key item hat howner => treats_acts h hacts hat howner⟩

/-- An add-on's shortcut with another's item, whose identifier a third one's orphan has. -/
def sharedIdentifier : List QuickAccessOp :=
  [.addShortcut true ⟨⟨1, 1⟩, 1⟩ "a" "" "" "" "",
    .addContextItem true "x" "a" ⟨⟨⟨2, 1⟩, 2⟩, .managed 1⟩,
    .addContextItem true "x" "z" ⟨⟨⟨3, 1⟩, 3⟩, .managed 1⟩]

/-- The removal of the shortcut loses the other add-on's item. -/
theorem foreign_item_displaced :
    let qa := run .default .empty sharedIdentifier
    let op : QuickAccessOp := .removeShortcutForOwner true ⟨⟨1, 1⟩, 1⟩ "a"
    let item : ContextItem := ⟨"x", "a", ⟨0, ⟨⟨⟨2, 1⟩, 2⟩, .managed 1⟩, 3⟩⟩
    op.ActsFor ⟨1, 1⟩ ∧ qa.at? (.shortcut "a") "x" = some item ∧ item.owner ≠ ⟨1, 1⟩ ∧
      ¬Present (op.step .default qa) item := by
  refine ⟨rfl, by decide +kernel, by decide, fun h => ?_⟩
  have hinactive : (step .default (run .default .empty sharedIdentifier)
      (.removeShortcutForOwner true ⟨⟨1, 1⟩, 1⟩ "a")).slots.isActive
        ⟨0, ⟨⟨⟨2, 1⟩, 2⟩, .managed 1⟩, 3⟩ = false := by decide +kernel
  exact Bool.false_ne_true (hinactive.symm.trans h.active)

end QuickAccessOp

end Nexus.UiHost
