import Nexus.QuickAccessPlaces

namespace Nexus.UiHost

namespace QuickAccess

/-- A target that can adopt the orphans of some identifiers. -/
structure Adoptable (qa : QuickAccess) (target : String) (parent : Shortcut) (keys : List String) :
    Prop where
  found : qa.shortcuts.get? target = some parent
  orphans : ∀ key ∈ keys, ∃ item, qa.orphans.get? key = some item ∧ item.id = key ∧
    item.target = target ∧ parent.contextItems.get? key = none
  nodup : keys.Nodup

structure Adopted (qa next : QuickAccess) (target : String) (parent : Shortcut)
    (keys : List String) : Prop where
  parent : ∃ items, next.shortcuts.get? target = some { parent with contextItems := items } ∧
    ∀ key, items.get? key =
      if key ∈ keys then qa.orphans.get? key else parent.contextItems.get? key
  others : ∀ id, id ≠ target → next.shortcuts.get? id = qa.shortcuts.get? id
  orphans : ∀ key, next.orphans.get? key = if key ∈ keys then none else qa.orphans.get? key
  suppressed : next.suppressed = qa.suppressed
  slots : next.slots = qa.slots

theorem foldl_adopt {qa : QuickAccess} {target : String} {parent : Shortcut} {keys : List String}
    (h : Adoptable qa target parent keys) (count : Nat) :
    Adopted qa (keys.foldl adopt (count, qa)).2 target parent keys := by
  induction keys generalizing qa parent count with
  | nil =>
    exact ⟨⟨parent.contextItems, h.found, fun _ => by simp⟩, fun _ _ => rfl, fun _ => by simp, rfl,
      rfl⟩
  | cons key rest ih =>
    obtain ⟨item, hitem, hid, htarget, hfree⟩ := h.orphans key List.mem_cons_self
    have hnodup := List.nodup_cons.mp h.nodup
    have hstep : adopt (count, qa) key = (count + 1,
        putShortcut { qa with orphans := qa.orphans.erase key } target
          { parent with contextItems := parent.contextItems.put key item }) := by
      unfold adopt
      dsimp only
      rw [hitem]
      dsimp only
      rw [htarget, h.found]
      dsimp only
      rw [hid, hfree]
      rfl
    rw [List.foldl_cons, hstep]
    generalize hnext : putShortcut { qa with orphans := qa.orphans.erase key } target
      { parent with contextItems := parent.contextItems.put key item } = next
    have hshortcuts (id : String) : next.shortcuts.get? id = if id = target then
        some { parent with contextItems := parent.contextItems.put key item }
        else qa.shortcuts.get? id := by
      rw [← hnext]
      exact SortedMap.get?_put ..
    have horphans (other : String) : next.orphans.get? other =
        if other = key then none else qa.orphans.get? other := by
      rw [← hnext]
      exact SortedMap.get?_erase ..
    have hready : Adoptable next target
        { parent with contextItems := parent.contextItems.put key item } rest := by
      refine ⟨(hshortcuts target).trans (if_pos rfl), fun other hother => ?_, hnodup.2⟩
      obtain ⟨otherItem, hget, hotherId, hotherTarget, hotherFree⟩ :=
        h.orphans other (List.mem_cons_of_mem _ hother)
      have hne : other ≠ key := fun heq => hnodup.1 (heq ▸ hother)
      refine ⟨otherItem, ?_, hotherId, hotherTarget, ?_⟩
      · rw [horphans, if_neg hne]
        exact hget
      · dsimp only
        rw [SortedMap.get?_put, if_neg hne]
        exact hotherFree
    have hrest := ih hready (count + 1)
    obtain ⟨items, hfound, hitems⟩ := hrest.parent
    refine ⟨⟨items, hfound, fun other => ?_⟩, fun id hne => ?_, fun other => ?_, ?_, ?_⟩
    · rw [hitems, horphans]
      by_cases hkey : other = key
      · subst hkey
        simp [hnodup.1, SortedMap.get?_put, hitem]
      · simp [hkey, SortedMap.get?_put]
    · rw [hrest.others id hne, hshortcuts, if_neg hne]
    · rw [hrest.orphans, horphans]
      by_cases hkey : other = key
      · simp [hkey]
      · simp [hkey]
    · rw [hrest.suppressed, ← hnext]
      rfl
    · rw [hrest.slots, ← hnext]
      rfl

def candidates (qa : QuickAccess) : List String :=
  (qa.orphans.filter fun _ item => (qa.shortcuts.get? item.target).isSome).toList.map Prod.fst

theorem mem_candidates {qa : QuickAccess} {key : String} :
    key ∈ qa.candidates ↔ ∃ item, qa.orphans.get? key = some item ∧
      (qa.shortcuts.get? item.target).isSome = true := by
  unfold candidates
  rw [List.mem_map]
  constructor
  · rintro ⟨⟨_, item⟩, hmem, rfl⟩
    obtain ⟨hget, htarget⟩ := List.mem_filter.mp hmem
    exact ⟨item, SortedMap.get?_of_mem hget, htarget⟩
  · rintro ⟨item, hget, htarget⟩
    exact ⟨(key, item), List.mem_filter.mpr ⟨SortedMap.get?_mem hget, htarget⟩, rfl⟩

theorem nodup_candidates (qa : QuickAccess) : qa.candidates.Nodup :=
  (SortedMap.sorted _).imp fun h => ne_of_lt h

theorem reparentOrphans_arranged {qa : QuickAccess} (h : Arranged qa) :
    qa.reparentOrphans = (0, qa) := by
  have hnone : qa.candidates = [] := by
    refine List.eq_nil_iff_forall_not_mem.mpr fun key hkey => ?_
    obtain ⟨item, hget, htarget⟩ := mem_candidates.mp hkey
    rw [h.orphan key item hget] at htarget
    cases htarget
  show qa.candidates.foldl adopt (0, qa) = (0, qa)
  rw [hnone]
  rfl

section Registered

variable {qa : QuickAccess} {shortcut : Shortcut} {target : String}
  (h : Arranged qa) (hnew : qa.shortcuts.get? target = none)
  (hempty : shortcut.contextItems = .empty)

variable (target) in
include h hempty in
theorem adopted_of_registered :
    ∃ keys, Adopted (qa.putShortcut target shortcut)
        (qa.putShortcut target shortcut).reparentOrphans.2 target shortcut keys ∧
      ∀ key, key ∈ keys ↔ ∃ item, qa.orphans.get? key = some item ∧ item.target = target := by
  have hget (id : String) : (qa.putShortcut target shortcut).shortcuts.get? id =
      if id = target then some shortcut else qa.shortcuts.get? id := SortedMap.get?_put ..
  have hmem (key : String) : key ∈ (qa.putShortcut target shortcut).candidates ↔
      ∃ item, qa.orphans.get? key = some item ∧ item.target = target := by
    rw [mem_candidates]
    refine exists_congr fun item => and_congr_right fun horphan => ?_
    rw [hget]
    by_cases htarget : item.target = target
    · simp [htarget]
    · rw [if_neg htarget, h.orphan key item horphan]
      simp [htarget]
  refine ⟨_, foldl_adopt ⟨(hget target).trans (if_pos rfl), fun key hkey => ?_,
    nodup_candidates _⟩ 0, hmem⟩
  obtain ⟨item, horphan, htarget⟩ := (hmem key).mp hkey
  exact ⟨item, horphan, h.itemId .orphanage key item horphan, htarget, by rw [hempty]; rfl⟩

include h hempty in
theorem orphanage_registered (key : String) :
    (qa.putShortcut target shortcut).reparentOrphans.2.at? .orphanage key =
      (qa.orphans.get? key).filter fun item => item.target ≠ target := by
  obtain ⟨keys, hadopted, hkeys⟩ := adopted_of_registered target h hempty
  refine (hadopted.orphans key).trans ?_
  show (if key ∈ keys then none else qa.orphans.get? key) = _
  rcases hget : qa.orphans.get? key with _ | item
  · simp
  · have hkey := hkeys key
    rw [hget] at hkey
    by_cases htarget : item.target = target <;> simp [hkey, htarget, Option.filter]

include h hempty in
theorem target_registered (key : String) :
    (qa.putShortcut target shortcut).reparentOrphans.2.at? (.shortcut target) key =
      (qa.orphans.get? key).filter fun item => item.target = target := by
  obtain ⟨keys, hadopted, hkeys⟩ := adopted_of_registered target h hempty
  obtain ⟨items, hfound, hitems⟩ := hadopted.parent
  rw [at?_shortcut hfound]
  show items.get? key = _
  rw [hitems, hempty]
  show (if key ∈ keys then qa.orphans.get? key else none) = _
  rcases hget : qa.orphans.get? key with _ | item
  · simp
  · have hkey := hkeys key
    rw [hget] at hkey
    by_cases htarget : item.target = target <;> simp [hkey, htarget, Option.filter]

include h hempty in
theorem shortcut_registered {id : String} (hid : id ≠ target) (key : String) :
    (qa.putShortcut target shortcut).reparentOrphans.2.at? (.shortcut id) key =
      qa.at? (.shortcut id) key := by
  obtain ⟨_, hadopted, _⟩ := adopted_of_registered target h hempty
  have hsame : (qa.putShortcut target shortcut).reparentOrphans.2.shortcuts.get? id =
      qa.shortcuts.get? id := by
    rw [hadopted.others id hid]
    exact (SortedMap.get?_put ..).trans (if_neg hid)
  show ((qa.putShortcut target shortcut).reparentOrphans.2.shortcuts.get? id).bind _ = _
  rw [hsame]
  rfl

include h hempty in
theorem registered_cases {place : ItemPlace} {key : String} {item : ContextItem}
    (hat : (qa.putShortcut target shortcut).reparentOrphans.2.at? place key = some item) :
    place = .shortcut target ∧ item.target = target ∧ qa.at? .orphanage key = some item ∨
      place = .orphanage ∧ item.target ≠ target ∧ qa.at? .orphanage key = some item ∨
      ∃ id, id ≠ target ∧ place = .shortcut id ∧ qa.at? (.shortcut id) key = some item := by
  cases place with
  | orphanage =>
    rw [orphanage_registered h hempty, Option.filter_eq_some_iff, decide_eq_true_eq] at hat
    exact Or.inr (Or.inl ⟨rfl, hat.2, hat.1⟩)
  | shortcut id =>
    by_cases hid : id = target
    · subst hid
      rw [target_registered h hempty, Option.filter_eq_some_iff, decide_eq_true_eq] at hat
      exact Or.inl ⟨rfl, hat.2, hat.1⟩
    · rw [shortcut_registered h hempty hid] at hat
      exact Or.inr (Or.inr ⟨id, hid, rfl, hat⟩)

include h hnew hempty in
theorem Arranged.registered (hsuppressed : shortcut.suppressed = (qa.suppressed.get? target).isSome) :
    Arranged (qa.putShortcut target shortcut).reparentOrphans.2 := by
  obtain ⟨_, hadopted, _⟩ := adopted_of_registered target h hempty
  have hslots : (qa.putShortcut target shortcut).reparentOrphans.2.slots = qa.slots :=
    hadopted.slots
  have hold : ∀ place key item,
      (qa.putShortcut target shortcut).reparentOrphans.2.at? place key = some item →
        ∃ old, qa.at? old key = some item := by
    intro place key item hat
    rcases registered_cases h hempty hat with ⟨_, _, hwas⟩ | ⟨_, _, hwas⟩ | ⟨id, _, _, hwas⟩
    · exact ⟨_, hwas⟩
    · exact ⟨_, hwas⟩
    · exact ⟨_, hwas⟩
  refine h.of_moved hold ?_ ?_ ?_ ?_ (congrArg CallbackSlots.next hslots) ?_
  · intro place other key item hat hother
    rcases registered_cases h hempty hat with ⟨rfl, htarget, hwas⟩ | ⟨rfl, htarget, hwas⟩ |
      ⟨id, hid, rfl, hwas⟩
    · rcases registered_cases h hempty hother with ⟨rfl, _, _⟩ | ⟨_, hne, _⟩ | ⟨id, _, _, hother⟩
      · rfl
      · exact absurd htarget hne
      · exact ItemPlace.noConfusion (h.distinct _ _ _ hwas _ _ _ hother rfl).1
    · rcases registered_cases h hempty hother with ⟨_, heq, _⟩ | ⟨rfl, _, _⟩ | ⟨id, _, _, hother⟩
      · exact absurd heq htarget
      · rfl
      · exact ItemPlace.noConfusion (h.distinct _ _ _ hwas _ _ _ hother rfl).1
    · rcases registered_cases h hempty hother with ⟨_, _, hother⟩ | ⟨_, _, hother⟩ |
        ⟨id', _, rfl, hlater⟩
      · exact ItemPlace.noConfusion (h.distinct _ _ _ hwas _ _ _ hother rfl).1
      · exact ItemPlace.noConfusion (h.distinct _ _ _ hwas _ _ _ hother rfl).1
      · exact (h.distinct _ _ _ hwas _ _ _ hlater rfl).1
  · intro id key item hat
    rcases registered_cases h hempty hat with ⟨hplace, htarget, _⟩ | ⟨hplace, _, _⟩ |
      ⟨id', _, hplace, hwas⟩
    · rw [htarget, ItemPlace.shortcut.inj hplace]
    · cases hplace
    · cases hplace
      exact h.target id key item hwas
  · intro key item horphan
    have hat : (qa.putShortcut target shortcut).reparentOrphans.2.at? .orphanage key = some item :=
      horphan
    rcases registered_cases h hempty hat with ⟨hplace, _, _⟩ | ⟨_, hne, hwas⟩ | ⟨id, _, hplace, _⟩
    · cases hplace
    · rw [hadopted.others _ hne]
      exact ((SortedMap.get?_put ..).trans (if_neg hne)).trans (h.orphan key item hwas)
    · cases hplace
  · intro place key item hat
    obtain ⟨old, hwas⟩ := hold place key item hat
    rw [hslots]
    exact h.active old key item hwas
  · intro id found hget
    rw [hadopted.suppressed]
    by_cases hid : id = target
    · subst hid
      obtain ⟨_, hfound, _⟩ := hadopted.parent
      rw [hfound] at hget
      cases hget
      exact hsuppressed
    · rw [hadopted.others id hid] at hget
      exact h.suppressed id found (((SortedMap.get?_put ..).trans (if_neg hid)).symm.trans hget)

end Registered

structure Taken (qa next : QuickAccess) (keeps : String → ContextItem → Bool)
    (removed : List ContextItem) : Prop where
  held : ∀ place key, next.at? place key = (qa.at? place key).filter (keeps key)
  gone : ∀ item ∈ removed, ∃ place key, qa.at? place key = some item ∧ keeps key item = false
  slots : next.slots = (removed.foldl deactivate qa).slots
  shortcuts : ∀ id, (next.shortcuts.get? id).map Shortcut.suppressed =
    (qa.shortcuts.get? id).map Shortcut.suppressed
  suppressed : next.suppressed = qa.suppressed

theorem Taken.old {qa next : QuickAccess} {keeps : String → ContextItem → Bool}
    {removed : List ContextItem} (h : Taken qa next keeps removed) {place : ItemPlace}
    {key : String} {item : ContextItem} (hat : next.at? place key = some item) :
    qa.at? place key = some item ∧ keeps key item = true := by
  rw [h.held, Option.filter_eq_some_iff] at hat
  exact hat

theorem Arranged.taken {qa next : QuickAccess} (h : Arranged qa)
    {keeps : String → ContextItem → Bool} {removed : List ContextItem}
    (ht : Taken qa next keeps removed) : Arranged next := by
  obtain ⟨_, hnext, hactive⟩ := foldl_deactivate removed qa
  refine h.of_moved (fun place key item hat => ⟨place, (ht.old hat).1⟩) ?_ ?_ ?_ ?_ ?_ ?_
  · intro place other key item hat hother
    exact (h.distinct _ _ _ (ht.old hat).1 _ _ _ (ht.old hother).1 rfl).1
  · intro id key item hat
    exact h.target id key item (ht.old hat).1
  · intro key item horphan
    have hat : next.at? .orphanage key = some item := horphan
    have hnone := ht.shortcuts item.target
    rw [h.orphan key item (ht.old hat).1, Option.map_none, Option.map_eq_none_iff] at hnone
    exact hnone
  · intro place key item hat
    obtain ⟨hold, hkeeps⟩ := ht.old hat
    rw [ht.slots, hactive]
    · exact h.active place key item hold
    · intro other hother heq
      obtain ⟨_, _, hotherAt, hdropped⟩ := ht.gone other hother
      obtain ⟨rfl, rfl⟩ := h.distinct _ _ _ hotherAt _ _ _ hold heq
      rw [hold] at hotherAt
      cases hotherAt
      rw [hkeeps] at hdropped
      cases hdropped
  · rw [ht.slots, hnext]
  · intro id shortcut hget
    have hsame := ht.shortcuts id
    rw [hget, Option.map_some] at hsame
    obtain ⟨old, hold, heq⟩ := Option.map_eq_some_iff.mp hsame.symm
    rw [ht.suppressed, ← heq]
    exact h.suppressed id old hold

theorem at?_mapValues {qa next : QuickAccess} {f : Shortcut → Shortcut}
    {keeps : String → ContextItem → Bool}
    (hshortcuts : next.shortcuts = qa.shortcuts.mapValues f)
    (horphans : next.orphans = qa.orphans.filter keeps)
    (hf : ∀ shortcut, (f shortcut).contextItems = shortcut.contextItems.filter keeps)
    (place : ItemPlace) (key : String) :
    next.at? place key = (qa.at? place key).filter (keeps key) := by
  cases place with
  | orphanage =>
    show next.orphans.get? key = _
    rw [horphans, SortedMap.get?_filter]
    rfl
  | shortcut id =>
    show (next.shortcuts.get? id).bind _ = ((qa.shortcuts.get? id).bind _).filter _
    rw [hshortcuts, SortedMap.get?_mapValues]
    rcases qa.shortcuts.get? id with _ | shortcut
    · rfl
    · rw [Option.map_some, Option.bind_some, Option.bind_some, hf, SortedMap.get?_filter]

theorem suppressed_mapValues {qa next : QuickAccess} {f : Shortcut → Shortcut}
    (hshortcuts : next.shortcuts = qa.shortcuts.mapValues f)
    (hf : ∀ shortcut, (f shortcut).suppressed = shortcut.suppressed) (id : String) :
    (next.shortcuts.get? id).map Shortcut.suppressed =
      (qa.shortcuts.get? id).map Shortcut.suppressed := by
  rw [hshortcuts, SortedMap.get?_mapValues, Option.map_map]
  exact congrArg (fun g => Option.map g _) (funext hf)

theorem mem_ownedItems {qa : QuickAccess} {owner : OwnerGeneration} {item : ContextItem}
    (h : item ∈ qa.ownedItems owner) :
    item.owner = owner ∧ ∃ place key, qa.at? place key = some item := by
  rcases List.mem_append.mp h with hattached | horphan
  · obtain ⟨shortcut, hshortcut, hitem⟩ := List.mem_flatMap.mp hattached
    obtain ⟨hvalue, howner⟩ := List.mem_filter.mp hitem
    obtain ⟨id, hid⟩ := SortedMap.mem_values_iff.mp hshortcut
    obtain ⟨key, hkey⟩ := SortedMap.mem_values_iff.mp hvalue
    exact ⟨of_decide_eq_true howner, .shortcut id, key, (at?_shortcut hid key).trans hkey⟩
  · obtain ⟨hvalue, howner⟩ := List.mem_filter.mp horphan
    obtain ⟨key, hkey⟩ := SortedMap.mem_values_iff.mp hvalue
    exact ⟨of_decide_eq_true howner, .orphanage, key, hkey⟩

theorem taken_dropOwnerItems (qa : QuickAccess) (owner : OwnerGeneration) :
    Taken qa (qa.dropOwnerItems owner) (fun _ item => item.owner ≠ owner)
      (qa.ownedItems owner) where
  held := at?_mapValues (f := Shortcut.withoutOwner owner) rfl rfl fun _ => rfl
  gone := fun item hitem => by
    obtain ⟨howner, place, key, hat⟩ := mem_ownedItems hitem
    exact ⟨place, key, hat, by simp [howner]⟩
  slots := rfl
  shortcuts := suppressed_mapValues (f := Shortcut.withoutOwner owner) rfl fun _ => rfl
  suppressed := foldl_deactivate_suppressed (qa.ownedItems owner) qa

theorem taken_takeItems (qa : QuickAccess) (removes : ContextItem → Bool) (id : String) :
    Taken qa (qa.takeItems removes id) (fun key item => !(decide (key = id) && removes item))
      (qa.takenItems removes id) where
  held := at?_mapValues (f := Shortcut.keepItems _) rfl rfl fun _ => rfl
  gone := fun item hitem => by
    rcases List.mem_append.mp hitem with hattached | horphan
    · obtain ⟨shortcut, hshortcut, hget⟩ := List.mem_filterMap.mp hattached
      obtain ⟨hheld, hremoves⟩ := Option.filter_eq_some_iff.mp hget
      obtain ⟨key, hkey⟩ := SortedMap.mem_values_iff.mp hshortcut
      exact ⟨.shortcut key, id, (at?_shortcut hkey id).trans hheld, by simp [hremoves]⟩
    · obtain ⟨hheld, hremoves⟩ := Option.filter_eq_some_iff.mp (Option.mem_toList.mp horphan)
      exact ⟨.orphanage, id, hheld, by simp [hremoves]⟩
  slots := rfl
  shortcuts := suppressed_mapValues (f := Shortcut.keepItems _) rfl fun _ => rfl
  suppressed := foldl_deactivate_suppressed (qa.takenItems removes id) qa

theorem Arranged.bump {qa : QuickAccess} (h : Arranged qa) : Arranged qa.bump :=
  ⟨h.itemId, h.target, h.orphan, h.distinct, h.active, h.allocated, h.suppressed⟩

theorem Arranged.putShortcut {qa : QuickAccess} (h : Arranged qa) {id : String}
    {old shortcut : Shortcut} (hget : qa.shortcuts.get? id = some old)
    (hitems : shortcut.contextItems = old.contextItems)
    (hflag : shortcut.suppressed = old.suppressed) : Arranged (qa.putShortcut id shortcut) := by
  have hshortcuts (other : String) : (qa.putShortcut id shortcut).shortcuts.get? other =
      if other = id then some shortcut else qa.shortcuts.get? other := SortedMap.get?_put ..
  have hsame : ∀ place key, (qa.putShortcut id shortcut).at? place key = qa.at? place key := by
    intro place key
    cases place with
    | orphanage => rfl
    | shortcut other =>
      show ((qa.putShortcut id shortcut).shortcuts.get? other).bind _ = _
      rw [hshortcuts]
      split
      next heq => rw [heq, at?_shortcut hget, Option.bind_some, hitems]
      next => rfl
  refine h.of_moved (fun place key item hat => ⟨place, hsame place key ▸ hat⟩) ?_ ?_ ?_ ?_ rfl ?_
  · intro place other key item hat hother
    rw [hsame] at hat hother
    exact (h.distinct _ _ _ hat _ _ _ hother rfl).1
  · intro other key item hat
    rw [hsame] at hat
    exact h.target other key item hat
  · intro key item horphan
    have hnone := h.orphan key item horphan
    rw [hshortcuts, if_neg, hnone]
    rintro heq
    rw [heq, hget] at hnone
    cases hnone
  · intro place key item hat
    rw [hsame] at hat
    exact h.active place key item hat
  · intro other found hfound
    rw [hshortcuts] at hfound
    split at hfound
    next heq =>
      cases hfound
      rw [heq, hflag]
      exact h.suppressed id old hget
    next => exact h.suppressed other found hfound

end QuickAccess

end Nexus.UiHost
