import Mathlib.Data.List.Nodup
import Nexus.ManagedDocument

namespace Nexus

def mappingMembers (identifier : String) (mapping : Mapping) : JsonMembers :=
  ((((((mapping.extraJson.insert "Identifier" (.string identifier)).insert
    "Alt" (.bool mapping.binding.alt)).insert "Ctrl" (.bool mapping.binding.control)).insert
    "Shift" (.bool mapping.binding.shift)).insert "Type" (.number (.posInt
      (if mapping.binding.code = 0 then InputDevice.none else mapping.binding.device).raw))).insert
    "Code" (.number (.posInt mapping.binding.code))).insert
    "Passthrough" (.bool mapping.passthrough)

theorem mappingToJson_eq (identifier : String) (mapping : Mapping) :
    mappingToJson identifier mapping = .object (mappingMembers identifier mapping) := rfl

variable {mapping : Mapping}

theorem get_mappingMembers (identifier : String) (h : mapping.Documented) :
    (mappingMembers identifier mapping).get "Identifier" = some (.string identifier) ∧
      (mappingMembers identifier mapping).get "Alt" = some (.bool mapping.binding.alt) ∧
      (mappingMembers identifier mapping).get "Ctrl" = some (.bool mapping.binding.control) ∧
      (mappingMembers identifier mapping).get "Shift" = some (.bool mapping.binding.shift) ∧
      (mappingMembers identifier mapping).get "Type" = some (.number (.posInt
        (if mapping.binding.code = 0 then InputDevice.none else mapping.binding.device).raw)) ∧
      (mappingMembers identifier mapping).get "Code" =
        some (.number (.posInt mapping.binding.code)) ∧
      (mappingMembers identifier mapping).get "Key" = none ∧
      (mappingMembers identifier mapping).get "Passthrough" = some (.bool mapping.passthrough) := by
  have hkey := h.extras "Key" (by decide)
  simp [mappingMembers, JsonMembers.get_insert, hkey]

variable {identifier : String}

theorem removed_mappingMembers (h : mapping.Documented) :
    reservedKeys.foldl JsonMembers.remove (mappingMembers identifier mapping) =
      mapping.extraJson := by
  unfold mappingMembers
  rw [JsonMembers.foldl_remove_insert (by decide), JsonMembers.foldl_remove_insert (by decide),
    JsonMembers.foldl_remove_insert (by decide), JsonMembers.foldl_remove_insert (by decide),
    JsonMembers.foldl_remove_insert (by decide), JsonMembers.foldl_remove_insert (by decide),
    JsonMembers.foldl_remove_insert (by decide), JsonMembers.foldl_remove_of_absent h.extras]

theorem parseJsonMapping_mappingToJson (hvalid : validIdentifier identifier = true)
    (h : mapping.Documented) :
    parseJsonMapping (mappingToJson identifier mapping) =
      some (identifier, mapping.binding, mapping.passthrough, mapping.extraJson) := by
  obtain ⟨hname, halt, hcontrol, hshift, htype, hcode, _, hpass⟩ :=
    get_mappingMembers identifier h
  have hdevice : parseDeviceCode (mappingMembers identifier mapping) =
      some (if mapping.binding.code = 0 then InputDevice.none else mapping.binding.device,
        mapping.binding.code) := by
    unfold parseDeviceCode absentOrNull
    rw [htype, hcode]
    simp [JsonValue.isNull, JsonValue.asU64, toUnsigned_val]
  have hbinding : (⟨mapping.binding.alt, mapping.binding.control, mapping.binding.shift,
      if mapping.binding.code = 0 then InputDevice.none else mapping.binding.device,
      mapping.binding.code⟩ : InputBind).normalized = mapping.binding := by
    have hnormal := h.normalized
    by_cases hzero : mapping.binding.code = 0
    · unfold InputBind.normalized at hnormal ⊢
      rw [if_pos hzero] at hnormal
      rw [if_pos hzero]
      exact hnormal
    · unfold InputBind.normalized
      rw [if_neg hzero, if_neg hzero]
  rw [mappingToJson_eq]
  show parseObject (mappingMembers identifier mapping) = _
  unfold parseObject readFlag absentOrNull
  rw [hname, halt, hcontrol, hshift, hcode, hpass, hdevice, removed_mappingMembers h]
  simp [JsonValue.asStr, JsonValue.asBool, JsonValue.isNull, hvalid, hbinding]

section Reread

variable (json : JsonLibrary)

theorem absentOrNull_reread (object : JsonMembers) (key : String) :
    absentOrNull (json.rereadMembers object) key = absentOrNull object key := by
  unfold absentOrNull
  rw [json.get_rereadMembers]
  rcases object.get key with _ | _
  · rfl
  · simp

theorem parseDeviceCode_reread (object : JsonMembers) :
    parseDeviceCode (json.rereadMembers object) = parseDeviceCode object := by
  unfold parseDeviceCode
  rw [absentOrNull_reread, absentOrNull_reread, json.get_rereadMembers, json.get_rereadMembers,
    json.get_rereadMembers]
  rcases object.get "Type" with _ | type <;> rcases object.get "Code" with _ | code <;>
    rcases object.get "Key" with _ | key <;> simp

theorem parseJsonMapping_reread {value : JsonValue} (h : parseJsonMapping value = none) :
    parseJsonMapping (json.reread value) = none := by
  unfold parseJsonMapping at h ⊢
  rw [json.asObject_reread]
  rcases hobject : value.asObject with _ | object
  · rfl
  · rw [hobject] at h
    have hparse : parseObject object = none := h
    show parseObject (json.rereadMembers object) = none
    unfold parseObject at hparse ⊢
    rw [json.get_rereadMembers]
    rcases hget : object.get "Identifier" with _ | name
    · rfl
    · rw [hget] at hparse
      rcases hname : name.asStr with _ | _
      · simp [hname]
      · simp only [Option.map_some, Option.bind_eq_bind, Option.bind_some, json.asStr_reread,
          hname, absentOrNull_reread, parseDeviceCode_reread] at hparse ⊢
        split
        · rfl
        next hvalid =>
          rw [if_neg hvalid] at hparse
          split
          · rfl
          next hcode =>
            rw [if_neg hcode] at hparse
            rcases hdevice : parseDeviceCode object with _ | ⟨_, _⟩
            · rfl
            · rw [hdevice] at hparse
              cases hparse

end Reread

namespace ManagedInputBinds

open ManagedWorld

def present (registry : SortedMap String Mapping) : JsonSlot → Bool
  | .known identifier => (registry.get? identifier).isSome
  | .opaqueValue _ => true

theorem present_known (registry : SortedMap String Mapping) (identifier : String) :
    present registry (.known identifier) = (registry.get? identifier).isSome := rfl

def slotValue (registry : SortedMap String Mapping) : JsonSlot → JsonValue
  | .known identifier => mappingToJson identifier ((registry.get? identifier).getD .default)
  | .opaqueValue value => value

def layout (state : ManagedInputBinds) : List JsonSlot :=
  state.jsonSlots.filter (present state.registry) ++
    (state.registry.toList.filter fun item => item.1 ∉ knownSlots state.jsonSlots).map
      fun item => .known item.1

theorem foldl_emitSlot (registry : SortedMap String Mapping) (slots : List JsonSlot)
    (output : List JsonValue) (emitted : List String) :
    slots.foldl (emitSlot registry) (output, emitted) =
      (output ++ (slots.filter (present registry)).map (slotValue registry),
        emitted ++ knownSlots (slots.filter (present registry))) := by
  induction slots generalizing output emitted with
  | nil => simp [knownSlots]
  | cons slot rest ih =>
    rw [List.foldl_cons]
    cases slot with
    | known identifier =>
      have hknown : knownSlots (.known identifier :: rest.filter (present registry)) =
          identifier :: knownSlots (rest.filter (present registry)) := rfl
      rcases hget : registry.get? identifier with _ | _
      · have hdrop : ¬present registry (.known identifier) = true := by
          rw [present_known, hget]
          exact Bool.false_ne_true
        rw [List.filter_cons_of_neg hdrop]
        simp only [emitSlot, hget]
        exact ih output emitted
      · have hkeep : present registry (.known identifier) = true := by
          rw [present_known, hget]
          rfl
        rw [List.filter_cons_of_pos hkeep, hknown]
        simp only [emitSlot, hget]
        rw [ih]
        simp [slotValue, hget]
    | opaqueValue value =>
      have hraw : knownSlots (.opaqueValue value :: rest.filter (present registry)) =
          knownSlots (rest.filter (present registry)) := rfl
      have hkeep : present registry (.opaqueValue value) = true := rfl
      rw [List.filter_cons_of_pos hkeep, hraw]
      simp only [emitSlot]
      rw [ih]
      simp [slotValue]

theorem mem_knownSlots {slots : List JsonSlot} {identifier : String} :
    identifier ∈ knownSlots slots ↔ .known identifier ∈ slots := by
  unfold knownSlots
  rw [List.mem_filterMap]
  constructor
  · rintro ⟨slot, hslot, hsome⟩
    cases slot with
    | known =>
      cases hsome
      exact hslot
    | opaqueValue => cases hsome
  · intro hslot
    exact ⟨_, hslot, rfl⟩

theorem knownSlots_known (items : List (String × Mapping)) :
    knownSlots (items.map fun item => .known item.1) = items.map Prod.fst := by
  induction items with
  | nil => rfl
  | cons item _ ih => exact congrArg (item.1 :: ·) ih

theorem opaqueValues_known (items : List (String × Mapping)) :
    opaqueValues (items.map fun item => .known item.1) = [] := by
  induction items with
  | nil => rfl
  | cons _ _ ih => exact ih

theorem saveValues_eq (state : ManagedInputBinds) :
    saveValues state = state.layout.map (slotValue state.registry) := by
  unfold saveValues layout
  rw [foldl_emitSlot, List.map_append, List.map_map, List.nil_append, List.nil_append]
  dsimp only
  congr 1
  have hfilter : (state.registry.toList.filter fun item =>
        item.1 ∉ knownSlots (state.jsonSlots.filter (present state.registry))) =
      state.registry.toList.filter fun item => item.1 ∉ knownSlots state.jsonSlots := by
    refine List.filter_congr fun item hitem => ?_
    have hget : state.registry.get? item.1 = some item.2 := SortedMap.get?_of_mem hitem
    have hsame : item.1 ∈ knownSlots (state.jsonSlots.filter (present state.registry)) ↔
        item.1 ∈ knownSlots state.jsonSlots := by
      rw [mem_knownSlots, mem_knownSlots, List.mem_filter]
      exact and_iff_left (by rw [present_known, hget]; rfl)
    simp only [hsame]
  rw [hfilter]
  refine List.map_congr_left fun item hitem => ?_
  have hget : state.registry.get? item.1 = some item.2 :=
    SortedMap.get?_of_mem (List.mem_of_mem_filter hitem)
  show _ = mappingToJson item.1 _
  rw [hget]
  rfl

variable {state : ManagedInputBinds}

theorem mem_knownSlots_layout {identifier : String} :
    identifier ∈ knownSlots state.layout ↔ (state.registry.get? identifier).isSome := by
  rw [mem_knownSlots]
  unfold layout
  rw [List.mem_append, List.mem_filter, List.mem_map]
  constructor
  · rintro (⟨_, hpresent⟩ | ⟨item, hitem, heq⟩)
    · exact hpresent
    · cases heq
      rw [SortedMap.get?_of_mem (List.mem_of_mem_filter hitem)]
      rfl
  · intro hsome
    by_cases hslot : identifier ∈ knownSlots state.jsonSlots
    · exact Or.inl ⟨mem_knownSlots.mp hslot, hsome⟩
    · obtain ⟨mapping, hget⟩ := Option.isSome_iff_exists.mp hsome
      refine Or.inr ⟨(identifier, mapping), ?_, rfl⟩
      exact List.mem_filter.mpr ⟨SortedMap.get?_mem hget, by simpa using hslot⟩

theorem Documented.layout_nodup (h : state.Documented) : (knownSlots state.layout).Nodup := by
  unfold layout
  rw [knownSlots_append, knownSlots_known, List.nodup_append]
  refine ⟨?_, ?_, ?_⟩
  · exact h.slots.sublist (List.filter_sublist.filterMap JsonSlot.identifier?)
  · refine (state.registry.sorted.sublist (List.filter_sublist.map Prod.fst)).imp ?_
    exact fun hlt => ne_of_lt hlt
  · rintro name hname other hother rfl
    obtain ⟨item, hitem, rfl⟩ := List.mem_map.mp hother
    have hnotin : item.1 ∉ knownSlots state.jsonSlots := by
      simpa using (List.mem_filter.mp hitem).2
    have hslot := mem_knownSlots.mp hname
    exact hnotin (mem_knownSlots.mpr (List.mem_of_mem_filter hslot))

theorem Documented.layout_length (h : state.Documented) :
    (knownSlots state.layout).length = state.registry.toList.length := by
  have hkeys : (state.registry.toList.map Prod.fst).Nodup :=
    state.registry.sorted.imp fun hlt => ne_of_lt hlt
  have hperm : (knownSlots state.layout).Perm (state.registry.toList.map Prod.fst) := by
    refine (List.perm_ext_iff_of_nodup h.layout_nodup hkeys).mpr fun name => ?_
    rw [mem_knownSlots_layout]
    constructor
    · intro hsome
      obtain ⟨_, hget⟩ := Option.isSome_iff_exists.mp hsome
      exact List.mem_map_of_mem (SortedMap.get?_mem hget)
    · intro hmem
      obtain ⟨_, hitem, rfl⟩ := List.mem_map.mp hmem
      rw [SortedMap.get?_of_mem hitem]
      rfl
  rw [hperm.length_eq, List.length_map]

theorem opaqueValues_layout (state : ManagedInputBinds) :
    opaqueValues state.layout = opaqueValues state.jsonSlots := by
  unfold layout
  rw [opaqueValues_append, opaqueValues_known, List.append_nil]
  unfold opaqueValues
  rw [List.filterMap_filter]
  refine List.filterMap_congr fun slot _ => ?_
  cases slot with
  | known => exact ite_self _
  | opaqueValue => rfl

end ManagedInputBinds

end Nexus
