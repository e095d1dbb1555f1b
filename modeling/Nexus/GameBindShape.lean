import Nexus.Fallible
import Nexus.SavedSlots

namespace Nexus

theorem parseAttributes_foldlM (attributes : List (String × String)) (parsed : XmlAttributes) :
    (attributes.map some).foldlM (fun parsed item =>
      match item with
      | none => (.error .invalidXml : Except PersistenceError XmlAttributes)
      | some (key, value) => .ok (parsed.put key value)) parsed =
      .ok (attributes.foldl (fun parsed item => parsed.put item.1 item.2) parsed) := by
  induction attributes generalizing parsed with
  | nil => rfl
  | cons item _ ih =>
    rw [List.map_cons, List.foldlM_cons, List.foldl_cons]
    exact ih (parsed.put item.1 item.2)

def readAttributes (attributes : List (String × String)) : XmlAttributes :=
  attributes.foldl (fun parsed item => parsed.put item.1 item.2) .empty

theorem parseAttributes_written (attributes : List (String × String)) :
    parseAttributes (attributes.map some) = .ok (readAttributes attributes) :=
  parseAttributes_foldlM attributes .empty

theorem get?_readAttributes {attributes : List (String × String)}
    (h : (attributes.map Prod.fst).Nodup) (key : String) :
    (readAttributes attributes).get? key = SortedMap.find key attributes := by
  unfold readAttributes
  rw [SortedMap.get?_foldl_put h]
  exact Option.or_none

theorem readAttributes_toList (attributes : XmlAttributes) :
    readAttributes attributes.toList = attributes := by
  refine SortedMap.ext_get? fun key => ?_
  rw [get?_readAttributes (attributes.sorted.imp fun h => ne_of_lt h)]
  rfl

/-- The attributes of an action that the registry keeps in fields of its own. -/
def actionAttributes : List String := "name" :: actionKeys

namespace GameBindRegistry

structure Shape (registry : GameBindRegistry) : Prop where
  defaults : ∀ id, (withDefaults.bindings.get? id).isSome → (registry.bindings.get? id).isSome
  legacy : registry.bindings.get? GameBindId.legacyMoveSwimUp = none
  normalized : ∀ id binding, registry.bindings.get? id = some binding →
    binding.primary.normalized = binding.primary ∧
      binding.secondary.normalized = binding.secondary
  extra_bound : ∀ id extra, registry.actionExtra.get? id = some extra →
    (registry.bindings.get? id).isSome
  extra_nonempty : ∀ id extra, registry.actionExtra.get? id = some extra →
    extra.toList.isEmpty = false
  extra_keys : ∀ id extra, registry.actionExtra.get? id = some extra →
    ∀ key ∈ actionAttributes, extra.get? key = none

def Fresh (bindings : SortedMap GameBindId MultiInputBind) : Prop :=
  ∀ id binding, bindings.get? id = some binding →
    id ≠ GameBindId.legacyMoveSwimUp ∧ binding.primary.Saveable ∧ binding.secondary.Saveable

theorem Fresh.put {bindings : SortedMap GameBindId MultiInputBind} (h : Fresh bindings)
    {id : GameBindId} {binding : MultiInputBind} (hid : id ≠ GameBindId.legacyMoveSwimUp)
    (hprimary : binding.primary.Saveable) (hsecondary : binding.secondary.Saveable) :
    Fresh (bindings.put id binding) := by
  intro other found hget
  rw [SortedMap.get?_put] at hget
  split at hget
  next heq =>
    cases hget
    exact ⟨heq ▸ hid, hprimary, hsecondary⟩
  next => exact h other found hget

theorem toInputBind_saveable {entry : DefaultKey}
    (h : gameScanCodeToScanCode entry.gameScanCode ∈ gameScanCodes.map Prod.snd) :
    entry.toInputBind.Saveable := Or.inr (Or.inl ⟨rfl, h⟩)

theorem defaultBoundBinds_keys : ∀ entry ∈ defaultBoundBinds,
    entry.action ≠ GameBindId.legacyMoveSwimUp ∧
      entry.primary.gameScanCode ∈ gameScanCodes.map Prod.fst ∧
        ∀ secondary ∈ entry.secondary, secondary.gameScanCode ∈ gameScanCodes.map Prod.fst := by
  decide +kernel

theorem toInputBind_saveable_of_mem {entry : DefaultKey}
    (h : entry.gameScanCode ∈ gameScanCodes.map Prod.fst) : entry.toInputBind.Saveable := by
  obtain ⟨pair, hpair, heq⟩ := List.mem_map.mp h
  refine toInputBind_saveable ?_
  rw [← heq, (gameScanCodes_inverse pair hpair).1]
  exact List.mem_map_of_mem hpair

theorem unboundBindings_fresh : Fresh unboundBindings := by
  refine List.foldlRecOn knownGameBinds _ (fun _ _ hget => by cases hget) ?_
  intro bindings h entry _
  split
  next => exact h
  next hid => exact h.put hid InputBind.default_saveable InputBind.default_saveable

theorem withDefaults_fresh : Fresh withDefaults.bindings := by
  refine List.foldlRecOn defaultBoundBinds _ unboundBindings_fresh ?_
  intro bindings h entry hentry
  obtain ⟨hid, hprimary, hsecondary⟩ := defaultBoundBinds_keys entry hentry
  refine h.put hid (toInputBind_saveable_of_mem hprimary) ?_
  rcases hsome : entry.secondary with _ | secondary
  · exact InputBind.default_saveable
  · exact toInputBind_saveable_of_mem (hsecondary secondary hsome)

theorem withDefaults_shape : withDefaults.Shape where
  defaults _ h := h
  legacy := by
    rcases hget : withDefaults.bindings.get? GameBindId.legacyMoveSwimUp with _ | binding
    · rfl
    · exact absurd rfl (withDefaults_fresh _ _ hget).1
  normalized id binding hget := by
    obtain ⟨_, hprimary, hsecondary⟩ := withDefaults_fresh id binding hget
    exact ⟨hprimary.normalized, hsecondary.normalized⟩
  extra_bound _ _ h := by cases h
  extra_nonempty _ _ h := by cases h
  extra_keys _ _ h := by cases h

theorem set_shape {registry : GameBindRegistry} (h : registry.Shape) (action : GameBindId)
    (slot : GameSlot) (binding : InputBind) : (registry.set action slot binding).2.Shape := by
  unfold set
  split
  · exact h
  next hne =>
  have hentry : ∀ found, registry.bindings.get? action = some found ∨ found = .default →
      found.primary.normalized = found.primary ∧ found.secondary.normalized = found.secondary := by
    rintro found (hget | rfl)
    · exact h.normalized action found hget
    · exact ⟨rfl, rfl⟩
  have hbound : ∀ id, (registry.bindings.get? id).isSome →
      ((registry.bindings.put action (((registry.bindings.get? action).getD .default).setSlot slot
        binding.normalized)).get? id).isSome := by
    intro id hsome
    rw [SortedMap.get?_put]
    split
    · rfl
    · exact hsome
  refine ⟨fun id hid => hbound id (h.defaults id hid), ?_, ?_,
    fun id extra hget => hbound id (h.extra_bound id extra hget), h.extra_nonempty, h.extra_keys⟩
  · show (registry.bindings.put _ _).get? _ = none
    rw [SortedMap.get?_put, if_neg (Ne.symm hne)]
    exact h.legacy
  · intro id found hget
    rw [SortedMap.get?_put] at hget
    split at hget
    · cases hget
      have hold := hentry ((registry.bindings.get? action).getD .default) (by
        rcases registry.bindings.get? action with _ | found
        · exact Or.inr rfl
        · exact Or.inl rfl)
      cases slot with
      | primary => exact ⟨InputBind.normalized_normalized _, hold.2⟩
      | secondary => exact ⟨hold.1, InputBind.normalized_normalized _⟩
    · exact h.normalized id found hget

theorem parseXmlSlot_normalized {attributes : XmlAttributes}
    {deviceSuffix buttonSuffix modifierSuffix : String} {binding : InputBind}
    (h : parseXmlSlot attributes deviceSuffix buttonSuffix modifierSuffix = some binding) :
    binding.normalized = binding := by
  obtain ⟨_, _, h⟩ := Option.bind_eq_some_iff.mp h
  dsimp only at h
  split at h
  · obtain ⟨button, _, h⟩ := Option.bind_eq_some_iff.mp h
    obtain ⟨_, _, h⟩ := Option.bind_eq_some_iff.mp h
    cases h
    exact InputBind.normalized_normalized _
  split at h
  · obtain ⟨button, _, h⟩ := Option.bind_eq_some_iff.mp h
    split at h
    · cases h
      exact InputBind.normalized_normalized _
    · cases h
      rfl
  · cases h
    rfl

def extraAttributes (attributes : XmlAttributes) : XmlAttributes :=
  actionKeys.foldl SortedMap.erase (attributes.erase "name")

theorem get?_extraAttributes (attributes : XmlAttributes) (key : String) :
    (extraAttributes attributes).get? key =
      if key ∈ actionAttributes then none else attributes.get? key := by
  unfold extraAttributes actionAttributes
  rw [SortedMap.get?_foldl_erase, SortedMap.get?_erase]
  by_cases hname : key = "name"
  · simp [hname]
  · by_cases hkey : key ∈ actionKeys
    · simp [hkey]
    · simp [hname, hkey]

theorem applyXmlAction_shape {registry : GameBindRegistry} (h : registry.Shape)
    (attributes : XmlAttributes) : (registry.applyXmlAction attributes).2.Shape := by
  unfold applyXmlAction
  split
  · exact h
  next id _ =>
  split
  · exact h
  next hne =>
  have hbound : ∀ binding other, (registry.bindings.get? other).isSome →
      ((registry.bindings.put id binding).get? other).isSome := by
    intro binding other hsome
    rw [SortedMap.get?_put]
    split
    · rfl
    · exact hsome
  have hslot : ∀ (parsed : Option InputBind) (base : InputBind),
      (∀ binding, parsed = some binding → binding.normalized = binding) →
        base.normalized = base → (parsed.getD base).normalized = parsed.getD base := by
    intro parsed base hparsed hbase
    rcases parsed with _ | binding
    · exact hbase
    · exact hparsed binding rfl
  have hbase : ((registry.bindings.get? id).getD .default).primary.normalized =
        ((registry.bindings.get? id).getD .default).primary ∧
      ((registry.bindings.get? id).getD .default).secondary.normalized =
        ((registry.bindings.get? id).getD .default).secondary := by
    rcases hget : registry.bindings.get? id with _ | found
    · exact ⟨rfl, rfl⟩
    · exact h.normalized id found hget
  refine ⟨fun other hother => hbound _ other (h.defaults other hother), ?_, ?_, ?_, ?_, ?_⟩
  · show (registry.bindings.put _ _).get? _ = none
    rw [SortedMap.get?_put, if_neg (Ne.symm hne)]
    exact h.legacy
  · intro other found hget
    rw [SortedMap.get?_put] at hget
    split at hget
    · cases hget
      exact ⟨hslot _ _ (fun _ => parseXmlSlot_normalized) hbase.1,
        hslot _ _ (fun _ => parseXmlSlot_normalized) hbase.2⟩
    · exact h.normalized other found hget
  · intro other extra hget
    dsimp only at hget
    split at hget
    · exact hbound _ other (h.extra_bound other extra hget)
    · rw [SortedMap.get?_put] at hget
      split at hget
      next heq =>
        show ((registry.bindings.put id _).get? other).isSome
        rw [SortedMap.get?_put, if_pos heq]
        rfl
      next => exact hbound _ other (h.extra_bound other extra hget)
  · intro other extra hget
    dsimp only at hget
    split at hget
    · exact h.extra_nonempty other extra hget
    next hsome =>
      rw [SortedMap.get?_put] at hget
      split at hget
      · cases hget
        exact Bool.eq_false_iff.mpr hsome
      · exact h.extra_nonempty other extra hget
  · intro other extra hget key hkey
    dsimp only at hget
    split at hget
    · exact h.extra_keys other extra hget key hkey
    · rw [SortedMap.get?_put] at hget
      split at hget
      · cases hget
        exact (get?_extraAttributes attributes key).trans (if_pos hkey)
      · exact h.extra_keys other extra hget key hkey

end GameBindRegistry

namespace XmlLoad

open GameBindRegistry

variable {state next : XmlLoad} {attributes : List (Option (String × String))}

theorem root_shape (h : state.candidate.Shape) (hroot : state.root attributes = .ok next) :
    next.candidate.Shape := by
  obtain ⟨_, _, hroot⟩ := except_bind_ok hroot
  cases hroot
  exact ⟨h.defaults, h.legacy, h.normalized, h.extra_bound, h.extra_nonempty, h.extra_keys⟩

theorem action_shape (h : state.candidate.Shape) (haction : state.action attributes = .ok next) :
    next.candidate.Shape := by
  unfold action at haction
  split at haction
  · cases haction
  · obtain ⟨attributes, _, haction⟩ := except_bind_ok haction
    cases haction
    exact applyXmlAction_shape h attributes

theorem opened_shape {name : String} (h : state.candidate.Shape)
    (hopened : state.opened name attributes = .ok next) : next.candidate.Shape := by
  unfold opened at hopened
  split at hopened
  · split at hopened
    · cases hopened
    · exact root_shape h hopened
  · split at hopened
    · exact action_shape h hopened
    · cases hopened
      exact h

theorem event_shape {event : XmlEvent} (h : state.candidate.Shape)
    (hevent : state.event event = .ok next) : next.candidate.Shape := by
  cases event with
  | decl | comment | text | other => cases hevent; exact h
  | start =>
    obtain ⟨middle, hmiddle, hevent⟩ := except_bind_ok hevent
    have hshape : middle.candidate.Shape := opened_shape h hmiddle
    cases hevent
    exact hshape
  | empty =>
    simp only [event] at hevent
    split at hevent
    · exact root_shape h hevent
    · split at hevent
      · exact action_shape h hevent
      · cases hevent
        exact h
  | close =>
    simp only [event] at hevent
    split at hevent
    · cases hevent
    · cases hevent
      exact h

theorem events_shape (events : List XmlEvent) {final : XmlLoad} (h : state.candidate.Shape)
    (hfinal : events.foldlM XmlLoad.event state = .ok final) : final.candidate.Shape := by
  induction events generalizing state with
  | nil =>
    cases hfinal
    exact h
  | cons _ _ ih =>
    rw [List.foldlM_cons] at hfinal
    obtain ⟨_, hnext, hfinal⟩ := except_bind_ok hfinal
    exact ih (event_shape h hnext) hfinal

end XmlLoad

namespace GameBindRegistry

variable {library : XmlLibrary}

theorem parseXml_shape {source : String} {report : LoadReport} {candidate : GameBindRegistry}
    (h : parseXml library source = .ok (report, candidate)) : candidate.Shape := by
  unfold parseXml at h
  split at h
  · cases h
  · obtain ⟨_, hfinal, h⟩ := except_bind_ok h
    split at h
    · cases h
    split at h
    · cases h
    cases h
    have hstart : XmlLoad.start.candidate.Shape := by
      unfold XmlLoad.start
      exact withDefaults_shape
    exact XmlLoad.events_shape _ hstart hfinal

theorem loadXml_shape {registry : GameBindRegistry} (h : registry.Shape) (source : String) :
    (registry.loadXml library source).2.Shape := by
  unfold loadXml
  split
  next hparse => exact parseXml_shape hparse
  next => exact h

end GameBindRegistry

namespace GameXmlOp

theorem apply_shape {library : XmlLibrary} {registry : GameBindRegistry} (h : registry.Shape)
    (op : GameXmlOp) : (apply library registry op).Shape := by
  cases op with
  | set action slot binding => exact GameBindRegistry.set_shape h action slot binding
  | loadXml source => exact GameBindRegistry.loadXml_shape h source

theorem run_shape (library : XmlLibrary) (ops : List GameXmlOp) : (run library ops).Shape := by
  unfold run
  generalize hstart : GameBindRegistry.withDefaults = start
  have hshape : start.Shape := hstart ▸ GameBindRegistry.withDefaults_shape
  clear hstart
  induction ops generalizing start with
  | nil => exact hshape
  | cons op _ ih => exact ih (apply library start op) (apply_shape hshape op)

end GameXmlOp

end Nexus
