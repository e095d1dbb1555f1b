import Nexus.DocumentLayout
import Mathlib.Data.List.Perm.Subperm

namespace Nexus

namespace ManagedInputBinds

open ManagedWorld

section Reload

variable (json : JsonLibrary)

def rereadMapping (mapping : Mapping) : Mapping :=
  { mapping with extraJson := json.rereadMembers mapping.extraJson }

def rereadSlot : JsonSlot → JsonSlot
  | .known identifier => .known identifier
  | .opaqueValue value => .opaqueValue (json.reread value)

def slotEntry (registry : SortedMap String Mapping) : JsonSlot → JsonParsed
  | .known identifier =>
    let mapping := (registry.get? identifier).getD .default
    .known identifier mapping.binding mapping.passthrough (json.rereadMembers mapping.extraJson)
  | .opaqueValue value => .opaqueValue (json.reread value)

theorem rereadMapping_documented {mapping : Mapping} (h : mapping.Documented) :
    (rereadMapping json mapping).Documented := by
  refine ⟨h.normalized, fun key hkey => ?_⟩
  show JsonMembers.get (json.rereadMembers mapping.extraJson) key = none
  rw [json.get_rereadMembers, h.extras key hkey]
  rfl

theorem reread_mappingToJson (identifier : String) (mapping : Mapping) :
    json.reread (mappingToJson identifier mapping) =
      mappingToJson identifier (rereadMapping json mapping) := by
  rw [mappingToJson_eq, mappingToJson_eq, JsonLibrary.reread]
  unfold mappingMembers rereadMapping
  simp only [json.insert_rereadMembers, JsonLibrary.reread, JsonLibrary.rereadNumber]

variable {state : ManagedInputBinds}

theorem Documented.getD (h : state.Documented) (identifier : String) :
    ((state.registry.get? identifier).getD .default).Documented := by
  rcases hget : state.registry.get? identifier with _ | mapping
  · exact Mapping.default_documented
  · exact h.mapping identifier mapping hget

theorem parseEntry_slotValue (h : state.Documented) {slot : JsonSlot}
    (hslot : slot ∈ state.layout) :
    parseEntry (json.reread (slotValue state.registry slot)) =
      slotEntry json state.registry slot := by
  cases slot with
  | known identifier =>
    have hvalid := h.valid identifier (mem_knownSlots_layout.mp (mem_knownSlots.mpr hslot))
    have hmapping := rereadMapping_documented json (h.getD identifier)
    show parseEntry (json.reread (mappingToJson identifier _)) = _
    rw [reread_mappingToJson]
    unfold parseEntry
    rw [parseJsonMapping_mappingToJson hvalid hmapping]
    rfl
  | opaqueValue value =>
    have hmem : value ∈ opaqueValues state.layout :=
      List.mem_filterMap.mpr ⟨.opaqueValue value, hslot, rfl⟩
    rw [opaqueValues_layout] at hmem
    have hparse := parseJsonMapping_reread json (h.unparsed value hmem)
    show parseEntry (json.reread value) = .opaqueValue (json.reread value)
    unfold parseEntry
    rw [hparse]

def loadedMapping (registry : SortedMap String Mapping) (identifier : String)
    (base : Option Mapping) : Mapping :=
  { base.getD .default with
    binding := ((registry.get? identifier).getD .default).binding
    passthrough := ((registry.get? identifier).getD .default).passthrough
    extraJson := json.rereadMembers ((registry.get? identifier).getD .default).extraJson }

theorem applyEntries_slots (registry : SortedMap String Mapping) (slots : List JsonSlot)
    (seen : List String) (hnodup : (seen ++ knownSlots slots).Nodup) (state : ManagedInputBinds) :
    (applyEntries (slots.map (slotEntry json registry)) seen state).jsonSlots =
        state.jsonSlots ++ slots.map (rereadSlot json) ∧
      ∀ identifier,
        (applyEntries (slots.map (slotEntry json registry)) seen state).registry.get? identifier =
          if identifier ∈ knownSlots slots then
            some (loadedMapping json registry identifier (state.registry.get? identifier))
          else state.registry.get? identifier := by
  induction slots generalizing seen state with
  | nil => exact ⟨(List.append_nil _).symm, fun _ => rfl⟩
  | cons slot rest ih =>
    cases slot with
    | known name =>
      have hcons : knownSlots (.known name :: rest) = name :: knownSlots rest := rfl
      rw [hcons] at hnodup
      have hname : name ∉ seen := by
        intro hmem
        exact (List.nodup_append.mp hnodup).2.2 name hmem name List.mem_cons_self rfl
      have hrest : name ∉ knownSlots rest :=
        (List.nodup_cons.mp (List.nodup_append.mp hnodup).2.1).1
      have hnext : (seen ++ [name] ++ knownSlots rest).Nodup := by
        rw [List.append_assoc]
        exact hnodup
      obtain ⟨hslots, hregistry⟩ := ih (seen ++ [name]) hnext
        (applyParsed state seen (slotEntry json registry (.known name))).1
      have hseen : (applyParsed state seen (slotEntry json registry (.known name))).2 =
          seen ++ [name] := if_neg hname
      rw [List.map_cons, applyEntries]
      dsimp only
      rw [hseen, hslots]
      refine ⟨?_, fun identifier => ?_⟩
      · simp [applyParsed, slotEntry, hname, rereadSlot]
      · have hput : (applyParsed state seen
            (slotEntry json registry (.known name))).1.registry.get? identifier =
              if identifier = name then
                some (loadedMapping json registry name (state.registry.get? name))
              else state.registry.get? identifier := SortedMap.get?_put ..
        rw [hregistry identifier, hcons, hput]
        by_cases heq : identifier = name
        · subst heq
          rw [if_neg hrest, if_pos rfl, if_pos List.mem_cons_self]
        · have hmem : identifier ∈ name :: knownSlots rest ↔ identifier ∈ knownSlots rest := by
            rw [List.mem_cons]
            exact or_iff_right heq
          rw [if_neg heq, if_congr hmem rfl rfl]
    | opaqueValue value =>
      have hcons : knownSlots (.opaqueValue value :: rest) = knownSlots rest := rfl
      rw [hcons] at hnodup
      obtain ⟨hslots, hregistry⟩ := ih seen hnodup
        (applyParsed state seen (slotEntry json registry (.opaqueValue value))).1
      refine ⟨?_, hregistry⟩
      rw [List.map_cons, applyEntries]
      refine hslots.trans ?_
      simp [applyParsed, slotEntry, rereadSlot]

def savedFields (mapping : Mapping) : InputBind × Bool × JsonMembers :=
  (mapping.binding, mapping.passthrough, mapping.extraJson)

def reloaded (state : ManagedInputBinds) : ManagedInputBinds :=
  applyEntries (state.layout.map (slotEntry json state.registry)) [] .default

theorem reloaded_slots (h : state.Documented) :
    (state.reloaded json).jsonSlots = state.layout.map (rereadSlot json) :=
  (applyEntries_slots json state.registry state.layout [] h.layout_nodup .default).1

theorem reloaded_get? (h : state.Documented) (identifier : String) :
    (state.reloaded json).registry.get? identifier =
      (state.registry.get? identifier).map fun mapping =>
        { rereadMapping json mapping with callback := none } := by
  have hload := (applyEntries_slots json state.registry state.layout [] h.layout_nodup
    .default).2 identifier
  unfold reloaded
  rw [hload]
  rcases hget : state.registry.get? identifier with _ | mapping
  · rw [if_neg (by rw [mem_knownSlots_layout, hget]; exact Bool.false_ne_true)]
    rfl
  · rw [if_pos (by rw [mem_knownSlots_layout, hget]; rfl)]
    unfold loadedMapping
    rw [hget]
    rfl

theorem knownSlots_reread (slots : List JsonSlot) :
    knownSlots (slots.map (rereadSlot json)) = knownSlots slots := by
  unfold knownSlots
  rw [List.filterMap_map]
  refine List.filterMap_congr fun slot _ => ?_
  cases slot <;> rfl

theorem opaqueValues_reread (slots : List JsonSlot) :
    opaqueValues (slots.map (rereadSlot json)) = (opaqueValues slots).map json.reread := by
  unfold opaqueValues
  rw [List.filterMap_map, List.map_filterMap]
  refine List.filterMap_congr fun slot _ => ?_
  cases slot <;> rfl

theorem reloaded_layout (h : state.Documented) :
    (state.reloaded json).layout = state.layout.map (rereadSlot json) := by
  have hsome : ∀ identifier, ((state.reloaded json).registry.get? identifier).isSome ↔
      identifier ∈ knownSlots state.layout := by
    intro identifier
    rw [reloaded_get? json h, Option.isSome_map, mem_knownSlots_layout]
  have hpresent : (state.layout.map (rereadSlot json)).filter
      (present (state.reloaded json).registry) = state.layout.map (rereadSlot json) := by
    refine List.filter_eq_self.mpr fun slot hslot => ?_
    cases slot with
    | known =>
      rw [present_known, hsome, ← knownSlots_reread json, mem_knownSlots]
      exact hslot
    | opaqueValue => rfl
  have hrest : ((state.reloaded json).registry.toList.filter fun item =>
      item.1 ∉ knownSlots (state.layout.map (rereadSlot json))) = [] := by
    refine List.filter_eq_nil_iff.mpr fun item hitem => ?_
    rw [knownSlots_reread]
    have hget := SortedMap.get?_of_mem (show (item.1, item.2) ∈ _ from hitem)
    have hmem := (hsome item.1).mp (by rw [hget]; rfl)
    simpa using hmem
  unfold layout
  rw [reloaded_slots json h, hpresent, hrest]
  exact List.append_nil _

theorem mappingToJson_congr {identifier : String} {mapping other : Mapping}
    (h : savedFields mapping = savedFields other) :
    mappingToJson identifier mapping = mappingToJson identifier other := by
  obtain ⟨_, _, _, _⟩ := mapping
  obtain ⟨_, _, _, _⟩ := other
  cases h
  rfl

theorem saveValues_reloaded (h : state.Documented) :
    saveValues (state.reloaded json) = (saveValues state).map json.reread := by
  rw [saveValues_eq, saveValues_eq, reloaded_layout json h, List.map_map, List.map_map]
  refine List.map_congr_left fun slot hslot => ?_
  cases slot with
  | known identifier =>
    have hsome := mem_knownSlots_layout.mp (mem_knownSlots.mpr hslot)
    obtain ⟨_, hget⟩ := Option.isSome_iff_exists.mp hsome
    show mappingToJson identifier _ = json.reread (mappingToJson identifier _)
    rw [reread_mappingToJson, reloaded_get? json h, hget]
    exact mappingToJson_congr rfl
  | opaqueValue => rfl

theorem layout_entries (h : state.Documented) :
    state.layout.length = state.registry.toList.length + (opaqueValues state.jsonSlots).length := by
  have hsplit : ∀ slots : List JsonSlot,
      slots.length = (knownSlots slots).length + (opaqueValues slots).length := by
    intro slots
    induction slots with
    | nil => rfl
    | cons slot rest ih =>
      cases slot with
      | known identifier =>
        have hknown : knownSlots (.known identifier :: rest) = identifier :: knownSlots rest := rfl
        have hraw : opaqueValues (.known identifier :: rest) = opaqueValues rest := rfl
        rw [hknown, hraw, List.length_cons, List.length_cons, ih]
        omega
      | opaqueValue value =>
        have hknown : knownSlots (.opaqueValue value :: rest) = knownSlots rest := rfl
        have hraw : opaqueValues (.opaqueValue value :: rest) = value :: opaqueValues rest := rfl
        rw [hknown, hraw, List.length_cons, List.length_cons, ih]
        omega
  rw [hsplit, h.layout_length, opaqueValues_layout]

theorem reportOf_slots (registry : SortedMap String Mapping) (slots : List JsonSlot) :
    (reportOf (slots.map (slotEntry json registry))).loaded = (knownSlots slots).length := by
  unfold reportOf
  induction slots with
  | nil => rfl
  | cons slot rest ih =>
    cases slot with
    | known identifier =>
      have hknown : knownSlots (.known identifier :: rest) = identifier :: knownSlots rest := rfl
      rw [List.map_cons, List.countP_cons_of_pos rfl, hknown, List.length_cons]
      exact congrArg (· + 1) ih
    | opaqueValue =>
      rw [List.map_cons, List.countP_cons_of_neg Bool.false_ne_true]
      exact ih

def savedBytes (state : ManagedInputBinds) : Nat :=
  JsonText.bytes json.floatText 0 (.array (saveValues state)) + 1

theorem utf8ByteSize_saveJson (state : ManagedInputBinds) :
    (saveJson json state).utf8ByteSize = state.savedBytes json := by
  have hline : "\n".utf8ByteSize = 1 := rfl
  unfold saveJson savedBytes
  rw [String.utf8ByteSize_append, JsonText.utf8ByteSize_render, hline]

theorem loadJson_saved (h : state.Documented)
    (hparse : json.parse (saveJson json state) = some (json.reread (.array (saveValues state)))) :
    loadJson json (saveJson json state) .default =
      if maxDocumentBytes < state.savedBytes json ∨
          maxBindings < state.registry.toList.length + (opaqueValues state.jsonSlots).length then
        .error .limitExceeded
      else .ok (reportOf (state.layout.map (slotEntry json state.registry)),
        state.reloaded json) := by
  have hentries : ((json.rereadValues (saveValues state)).map parseEntry) =
      state.layout.map (slotEntry json state.registry) := by
    rw [json.rereadValues_eq, saveValues_eq, List.map_map, List.map_map]
    exact List.map_congr_left fun slot hslot => parseEntry_slotValue json h hslot
  have hlength : (json.rereadValues (saveValues state)).length =
      state.registry.toList.length + (opaqueValues state.jsonSlots).length := by
    rw [json.rereadValues_eq, saveValues_eq, List.length_map, List.length_map, layout_entries h]
  unfold loadJson parseDocument
  rw [utf8ByteSize_saveJson, hparse]
  by_cases hbytes : maxDocumentBytes < state.savedBytes json
  · rw [if_pos hbytes, if_pos (Or.inl hbytes)]
    rfl
  rw [if_neg hbytes]
  simp only [JsonLibrary.reread, JsonValue.asArray]
  rw [hlength, hentries]
  by_cases hmany : maxBindings <
      state.registry.toList.length + (opaqueValues state.jsonSlots).length
  · rw [if_pos hmany, if_pos (Or.inr hmany)]
    rfl
  · rw [if_neg hmany, if_neg fun hor => hor.elim hbytes hmany]
    rfl

/-- The saved document is accepted by a fresh engine, which then has every identifier with its
binding, passthrough flag and unknown fields and every opaque entry, and saves the same text. -/
def RoundTrips (state : ManagedInputBinds) : Prop :=
  ∃ report next, loadJson json (saveJson json state) .default = .ok (report, next) ∧
    report.loaded = state.registry.toList.length ∧
    (∀ identifier, (next.registry.get? identifier).map savedFields =
      (state.registry.get? identifier).map savedFields) ∧
    opaqueValues next.jsonSlots = opaqueValues state.jsonSlots ∧
    saveJson json next = saveJson json state

/-- Every number among the unknown fields and the opaque entries is read back as it was
printed. -/
structure Stable (state : ManagedInputBinds) : Prop where
  extras : ∀ identifier mapping, state.registry.get? identifier = some mapping →
    json.rereadMembers mapping.extraJson = mapping.extraJson
  values : ∀ value ∈ opaqueValues state.jsonSlots, json.reread value = value

theorem Stable.saveValues (h : state.Stable json) :
    (saveValues state).map json.reread = saveValues state := by
  rw [saveValues_eq, List.map_map]
  refine List.map_congr_left fun slot hslot => ?_
  cases slot with
  | known identifier =>
    have hsome := mem_knownSlots_layout.mp (mem_knownSlots.mpr hslot)
    obtain ⟨mapping, hget⟩ := Option.isSome_iff_exists.mp hsome
    show json.reread (mappingToJson identifier _) = mappingToJson identifier _
    rw [reread_mappingToJson, hget]
    refine mappingToJson_congr ?_
    unfold savedFields rereadMapping
    exact congrArg (fun extras => (mapping.binding, mapping.passthrough, extras))
      (h.extras identifier mapping hget)
  | opaqueValue value =>
    refine h.values value ?_
    rw [← opaqueValues_layout]
    exact List.mem_filterMap.mpr ⟨_, hslot, rfl⟩

theorem roundTrips_iff_of_documented (h : state.Documented)
    (hparse : json.parse (saveJson json state) = some (json.reread (.array (saveValues state)))) :
    state.RoundTrips json ↔ state.Stable json ∧
      state.registry.toList.length + (opaqueValues state.jsonSlots).length ≤ maxBindings ∧
      state.savedBytes json ≤ maxDocumentBytes := by
  have hload := loadJson_saved json h hparse
  have hraw : opaqueValues (state.reloaded json).jsonSlots =
      (opaqueValues state.jsonSlots).map json.reread := by
    rw [reloaded_slots json h, opaqueValues_reread, opaqueValues_layout]
  constructor
  · rintro ⟨report, next, hok, _, hfields, hvalues, _⟩
    rw [hload] at hok
    split at hok
    · cases hok
    next hlimits =>
    cases hok
    refine ⟨⟨fun identifier mapping hget => ?_, fun value hvalue => ?_⟩, ?_, ?_⟩
    · have hsame := hfields identifier
      rw [reloaded_get? json h, hget] at hsame
      exact congrArg (fun fields => fields.2.2) (Option.some.inj hsame)
    · rw [hraw] at hvalues
      exact List.map_inj_left.mp (hvalues.trans (List.map_id _).symm) value hvalue
    · exact not_lt.mp fun hlt => hlimits (Or.inr hlt)
    · exact not_lt.mp fun hlt => hlimits (Or.inl hlt)
  · rintro ⟨hstable, hcount, hbytes⟩
    have hlimits : ¬(maxDocumentBytes < state.savedBytes json ∨
        maxBindings < state.registry.toList.length + (opaqueValues state.jsonSlots).length) := by
      omega
    refine ⟨_, _, hload.trans (if_neg hlimits), ?_, fun identifier => ?_, ?_, ?_⟩
    · rw [reportOf_slots, h.layout_length]
    · rw [reloaded_get? json h]
      rcases hget : state.registry.get? identifier with _ | mapping
      · rfl
      · exact congrArg (fun extras => some (mapping.binding, mapping.passthrough, extras))
          (hstable.extras identifier mapping hget)
    · rw [hraw]
      exact (List.map_congr_left hstable.values).trans (List.map_id _)
    · unfold saveJson
      rw [saveValues_reloaded json h, hstable.saveValues]

end Reload

/-- A library that reads one saved document, without a float in it. -/
def readerOf (state : ManagedInputBinds) : JsonLibrary where
  parse text :=
    if text = JsonText.render (fun _ => "0.0") 0 (.array (saveValues state)) ++ "\n" then
      some (.array (saveValues state))
    else none
  floatText _ := "0.0"
  rereadFloat := id

theorem readerOf_parse (state : ManagedInputBinds) :
    (readerOf state).parse (saveJson (readerOf state) state) =
      some ((readerOf state).reread (.array (saveValues state))) := by
  rw [(readerOf state).reread_of_exact fun _ => rfl]
  exact if_pos rfl

end ManagedInputBinds

namespace ManagedOp

open ManagedInputBinds ManagedWorld

/-- A saved engine is loaded as it was exactly when the numbers it keeps are read back as they were
printed and the document keeps the limits of the loader. -/
theorem saved_binds_round_trip_iff (platform : ManagedPlatform) (ops : List ManagedOp)
    (hparse : platform.json.parse
        (saveJson platform.json (run platform ops).toManagedInputBinds) =
      some (platform.json.reread
        (.array (saveValues (run platform ops).toManagedInputBinds)))) :
    (run platform ops).RoundTrips platform.json ↔
      (run platform ops).Stable platform.json ∧
      (run platform ops).registry.toList.length +
        (opaqueValues (run platform ops).jsonSlots).length ≤ maxBindings ∧
      (run platform ops).savedBytes platform.json ≤ maxDocumentBytes :=
  roundTrips_iff_of_documented platform.json (run_documented platform ops) hparse

def registerAll (identifiers : List String) : ManagedInputBinds :=
  identifiers.foldl (fun state identifier =>
    match ManagedWorld.registerDefault identifier .default state with
    | .ok (_, next) => next
    | .error _ => state) .default

def registrations (identifiers : List String) : List ManagedOp :=
  identifiers.map fun identifier => .registerDefault identifier .default

theorem run_registrations (platform : ManagedPlatform) (identifiers : List String) :
    (run platform (registrations identifiers)).toManagedInputBinds = registerAll identifiers := by
  induction identifiers using List.reverseRecOn with
  | nil => rfl
  | append_singleton rest identifier ih =>
    have hops : registrations (rest ++ [identifier]) =
        registrations rest ++ [.registerDefault identifier .default] := by
      unfold registrations
      rw [List.map_append]
      rfl
    unfold registerAll at ih ⊢
    rw [hops, run_append, List.foldl_append, ← ih]
    simp only [step, List.foldl_cons, List.foldl_nil]
    rcases ManagedWorld.registerDefault identifier .default
      (run platform (registrations rest)).toManagedInputBinds with error | ⟨outcome, next⟩
    · rfl
    · rfl

theorem registerDefault_get? {identifier : String} (hvalid : validIdentifier identifier = true)
    (state : ManagedInputBinds) :
    ∃ outcome next, ManagedWorld.registerDefault identifier .default state = .ok (outcome, next) ∧
      ∀ other, other = identifier ∨ (state.registry.get? other).isSome →
        (next.registry.get? other).isSome := by
  have hok : validateIdentifier identifier = .ok () := if_pos hvalid
  unfold ManagedWorld.registerDefault
  rw [hok]
  rcases hget : state.registry.get? identifier with _ | _
  · refine ⟨_, _, rfl, fun other hother => ?_⟩
    show ((state.registry.put identifier _).get? other).isSome
    rw [SortedMap.get?_put]
    split
    · rfl
    next hne => exact hother.resolve_left hne
  · refine ⟨_, _, rfl, fun other hother => ?_⟩
    rcases hother with rfl | hsome
    · rw [hget]
      rfl
    · exact hsome

theorem registerAll_get? (identifiers : List String)
    (hvalid : ∀ identifier ∈ identifiers, validIdentifier identifier = true) :
    ∀ identifier ∈ identifiers, ((registerAll identifiers).registry.get? identifier).isSome := by
  induction identifiers using List.reverseRecOn with
  | nil => exact fun _ h => absurd h List.not_mem_nil
  | append_singleton rest name ih =>
    obtain ⟨_, next, hok, hkept⟩ := registerDefault_get?
      (hvalid name (List.mem_append_right rest List.mem_cons_self)) (registerAll rest)
    have hnext : registerAll (rest ++ [name]) = next := by
      unfold registerAll at hok ⊢
      rw [List.foldl_append]
      simp only [List.foldl_cons, List.foldl_nil, hok]
    intro identifier hmem
    rw [hnext]
    rcases List.mem_append.mp hmem with hold | hnew
    · refine hkept identifier (Or.inr (ih (fun other hother =>
        hvalid other (List.mem_append_left [name] hother)) identifier hold))
    · exact hkept identifier (Or.inl (List.mem_singleton.mp hnew))

def manyIdentifiers : List String := (List.range (maxBindings + 1)).map Nat.repr

theorem manyIdentifiers_valid :
    ∀ identifier ∈ manyIdentifiers, validIdentifier identifier = true := by
  intro identifier hmem
  obtain ⟨n, hn, rfl⟩ := List.mem_map.mp hmem
  have hsmall : n < 10 ^ 5 := lt_trans (List.mem_range.mp hn) (by decide)
  have hsize : n.repr.utf8ByteSize ≤ 5 := utf8ByteSize_repr_le (by decide) hsmall
  have hnul : ∀ c ∈ n.repr.toList, c ≠ Char.ofNat 0 := by
    rintro c hc rfl
    exact absurd (isDigit_of_mem_repr hc) (by decide)
  have hbound : n.repr.utf8ByteSize ≤ maxIdentifierBytes := le_trans hsize (by decide)
  simp only [validIdentifier, decide_eq_true_eq, List.all_eq_true]
  exact ⟨repr_ne_empty n, hbound, fun c hc => hnul c hc⟩

theorem manyIdentifiers_registered :
    maxBindings < (registerAll manyIdentifiers).registry.toList.length := by
  have hnodup : manyIdentifiers.Nodup := List.nodup_range.map fun m n heq => eq_of_repr_eq heq
  have hsubset : manyIdentifiers ⊆ (registerAll manyIdentifiers).registry.toList.map Prod.fst := by
    intro identifier hmem
    obtain ⟨_, hget⟩ := Option.isSome_iff_exists.mp
      (registerAll_get? manyIdentifiers manyIdentifiers_valid identifier hmem)
    exact List.mem_map_of_mem (SortedMap.get?_mem hget)
  have hlength := (hnodup.subperm hsubset).length_le
  have hcount : manyIdentifiers.length = maxBindings + 1 := by
    unfold manyIdentifiers
    rw [List.length_map, List.length_range]
  rw [hcount, List.length_map] at hlength
  exact Nat.lt_of_succ_le hlength

def quietPlatform (json : JsonLibrary) : ManagedPlatform :=
  ⟨1, fun _ => ⟨.returned (), .returned true, []⟩, json⟩

def onePlatform : ManagedPlatform := quietPlatform (readerOf (registerAll ["A"]))

theorem saved_binds_round_trip_iff_registered :
    (run onePlatform (registrations ["A"])).RoundTrips onePlatform.json ↔
      (run onePlatform (registrations ["A"])).Stable onePlatform.json ∧
      (run onePlatform (registrations ["A"])).registry.toList.length +
        (opaqueValues (run onePlatform (registrations ["A"])).jsonSlots).length ≤ maxBindings ∧
      (run onePlatform (registrations ["A"])).savedBytes onePlatform.json ≤ maxDocumentBytes := by
  refine saved_binds_round_trip_iff onePlatform (registrations ["A"]) ?_
  rw [run_registrations]
  exact readerOf_parse (registerAll ["A"])

/-- One identifier more than the loader accepts is saved all the same, and the document is then
refused. -/
theorem too_many_binds_not_loaded :
    ∃ platform ops, platform.json.parse
        (saveJson platform.json (run platform ops).toManagedInputBinds) =
      some (platform.json.reread (.array (saveValues (run platform ops).toManagedInputBinds))) ∧
      ¬(run platform ops).RoundTrips platform.json := by
  have hrun := run_registrations (quietPlatform (readerOf (registerAll manyIdentifiers)))
    manyIdentifiers
  have hparse := readerOf_parse (registerAll manyIdentifiers)
  have hdocumented : (registerAll manyIdentifiers).Documented := hrun ▸ run_documented _ _
  refine ⟨quietPlatform (readerOf (registerAll manyIdentifiers)), registrations manyIdentifiers,
    ?_, ?_⟩
  · rw [hrun]
    exact hparse
  · rw [hrun]
    intro htrips
    obtain ⟨_, _, _⟩ := (roundTrips_iff_of_documented
      (readerOf (registerAll manyIdentifiers)) hdocumented hparse).mp htrips
    have hmany := manyIdentifiers_registered
    omega

end ManagedOp

end Nexus
