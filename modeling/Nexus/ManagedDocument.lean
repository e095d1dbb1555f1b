import Nexus.JsonText
import Nexus.ManagedMoves
import Mathlib.Data.List.Induction

namespace Nexus

namespace ManagedWorld

def emitSlot (registry : SortedMap String Mapping) (written : List JsonValue × List String) :
    JsonSlot → List JsonValue × List String
  | .known identifier =>
    match registry.get? identifier with
    | some mapping => (written.1 ++ [mappingToJson identifier mapping], written.2 ++ [identifier])
    | none => written
  | .opaqueValue value => (written.1 ++ [value], written.2)

def saveValues (state : ManagedInputBinds) : List JsonValue :=
  let written := state.jsonSlots.foldl (emitSlot state.registry) ([], [])
  written.1 ++ (state.registry.toList.filter fun item => item.1 ∉ written.2).map
    fun item => mappingToJson item.1 item.2

def saveJson (json : JsonLibrary) (state : ManagedInputBinds) : String :=
  JsonText.render json.floatText 0 (.array (saveValues state)) ++ "\n"

end ManagedWorld

namespace JsonSlot

def identifier? : JsonSlot → Option String
  | .known identifier => some identifier
  | .opaqueValue _ => none

def value? : JsonSlot → Option JsonValue
  | .known _ => none
  | .opaqueValue value => some value

end JsonSlot

def knownSlots (slots : List JsonSlot) : List String := slots.filterMap JsonSlot.identifier?

def opaqueValues (slots : List JsonSlot) : List JsonValue := slots.filterMap JsonSlot.value?

theorem knownSlots_append (a b : List JsonSlot) :
    knownSlots (a ++ b) = knownSlots a ++ knownSlots b := List.filterMap_append

theorem opaqueValues_append (a b : List JsonSlot) :
    opaqueValues (a ++ b) = opaqueValues a ++ opaqueValues b := List.filterMap_append

structure Mapping.Documented (mapping : Mapping) : Prop where
  normalized : mapping.binding.normalized = mapping.binding
  extras : ∀ key ∈ reservedKeys, mapping.extraJson.get key = none

structure ManagedInputBinds.Documented (state : ManagedInputBinds) : Prop where
  valid : ∀ identifier, (state.registry.get? identifier).isSome → validIdentifier identifier = true
  mapping : ∀ identifier mapping, state.registry.get? identifier = some mapping →
    mapping.Documented
  slots : (knownSlots state.jsonSlots).Nodup
  unparsed : ∀ value ∈ opaqueValues state.jsonSlots, parseJsonMapping value = none

theorem Mapping.default_documented : Mapping.default.Documented := by
  refine ⟨rfl, fun key _ => ?_⟩
  rfl

namespace ManagedInputBinds

open ManagedWorld

theorem default_documented : ManagedInputBinds.default.Documented := by
  refine ⟨fun identifier h => ?_, fun identifier mapping h => ?_, .nil, fun value h => ?_⟩
  · cases h
  · cases h
  · cases h

theorem Documented.put {state : ManagedInputBinds} (h : state.Documented) {identifier : String}
    {mapping : Mapping} (hvalid : validIdentifier identifier = true)
    (hmapping : mapping.Documented) :
    (∀ other, ((state.registry.put identifier mapping).get? other).isSome →
        validIdentifier other = true) ∧
      ∀ other found, (state.registry.put identifier mapping).get? other = some found →
        found.Documented := by
  constructor
  · intro other hsome
    rw [SortedMap.get?_put] at hsome
    split at hsome
    next heq => exact heq ▸ hvalid
    next => exact h.valid other hsome
  · intro other found hget
    rw [SortedMap.get?_put] at hget
    split at hget
    next =>
      cases hget
      exact hmapping
    next => exact h.mapping other found hget

variable {before after : ManagedInputBinds}

theorem Documented.move (h : before.Documented) (hmove : RegistryMove before after) :
    after.Documented := by
  cases hmove with
  | keep hregistry hslots =>
    refine ⟨?_, ?_, ?_, ?_⟩
    · rw [hregistry]
      exact h.valid
    · rw [hregistry]
      exact h.mapping
    · rw [hslots]
      exact h.slots
    · rw [hslots]
      exact h.unparsed
  | put identifier mapping hknown hbinding hextras hregistry hslots =>
    have hvalid : validIdentifier identifier = true := hknown.elim id (h.valid identifier)
    have hmapping : mapping.Documented := by
      constructor
      · rcases hbinding with hold | ⟨hnormal, _⟩
        · obtain ⟨found, hget, hsame⟩ := Option.map_eq_some_iff.mp hold
          rw [← hsame]
          exact (h.mapping identifier found hget).normalized
        · exact hnormal
      · rw [hextras]
        rcases hget : before.registry.get? identifier with _ | found
        · exact fun _ _ => rfl
        · exact (h.mapping identifier found hget).extras
    obtain ⟨hvalids, hmappings⟩ := h.put hvalid hmapping
    rw [← hregistry] at hvalids hmappings
    exact ⟨hvalids, hmappings, hslots ▸ h.slots, hslots ▸ h.unparsed⟩
  | erase _ hregistry hslots =>
    have hget : ∀ other found, after.registry.get? other = some found →
        before.registry.get? other = some found := by
      intro other found hfound
      rw [hregistry, SortedMap.get?_erase] at hfound
      split at hfound
      next => cases hfound
      next => exact hfound
    refine ⟨fun other hsome => ?_, fun other found hfound =>
      h.mapping other found (hget other found hfound), hslots ▸ h.slots, hslots ▸ h.unparsed⟩
    obtain ⟨found, hfound⟩ := Option.isSome_iff_exists.mp hsome
    refine h.valid other ?_
    rw [hget other found hfound]
    rfl

theorem Documented.moves (h : before.Documented) (hmoves : RegistryMoves before after) :
    after.Documented := by
  induction hmoves with
  | refl => exact h
  | tail _ hmove ih => exact ih.move hmove

def Parsed : JsonParsed → Prop
  | .known identifier binding _ extras => validIdentifier identifier = true ∧
      binding.normalized = binding ∧ ∀ key ∈ reservedKeys, extras.get key = none
  | .opaqueValue value => parseJsonMapping value = none

theorem parseEntry_parsed (value : JsonValue) : Parsed (parseEntry value) := by
  unfold parseEntry
  rcases hparse : parseJsonMapping value with _ | ⟨_, _, _, _⟩
  · exact hparse
  · obtain ⟨_, _, hobject⟩ := Option.bind_eq_some_iff.mp hparse
    obtain ⟨hvalid, hnormal, hextras⟩ := parseObject_spec hobject
    refine ⟨hvalid, hnormal, fun key hkey => ?_⟩
    rw [hextras, JsonMembers.get_foldl_remove, if_pos hkey]

variable {state : ManagedInputBinds} {seen : List String}

theorem applyParsed_documented (h : state.Documented) (hseen : knownSlots state.jsonSlots = seen)
    {entry : JsonParsed} (hparsed : Parsed entry) :
    (applyParsed state seen entry).1.Documented ∧
      knownSlots (applyParsed state seen entry).1.jsonSlots = (applyParsed state seen entry).2 := by
  subst hseen
  cases entry with
  | known identifier binding passthrough extras =>
    obtain ⟨hvalid, hnormal, hextras⟩ := hparsed
    let mapping : Mapping := { (state.registry.get? identifier).getD .default with
      binding := binding, passthrough := passthrough, extraJson := extras }
    have hmapping : mapping.Documented := ⟨hnormal, hextras⟩
    obtain ⟨hvalids, hmappings⟩ := h.put hvalid hmapping
    simp only [applyParsed]
    by_cases hold : identifier ∈ knownSlots state.jsonSlots
    · simp only [if_pos hold]
      exact ⟨⟨hvalids, hmappings, h.slots, h.unparsed⟩, trivial⟩
    · simp only [if_neg hold]
      refine ⟨⟨hvalids, hmappings, ?_, ?_⟩, knownSlots_append ..⟩
      · rw [knownSlots_append]
        refine List.nodup_append.mpr ⟨h.slots, List.pairwise_singleton _ identifier, ?_⟩
        intro other hother name hname
        obtain rfl : name = identifier := List.mem_singleton.mp hname
        rintro rfl
        exact hold hother
      · rw [opaqueValues_append]
        intro other hother
        rcases List.mem_append.mp hother with hold | hnew
        · exact h.unparsed other hold
        · cases hnew
  | opaqueValue value =>
    simp only [applyParsed]
    refine ⟨⟨h.valid, h.mapping, ?_, ?_⟩, ?_⟩
    · rw [knownSlots_append]
      exact (List.append_nil (knownSlots state.jsonSlots)).symm ▸ h.slots
    · rw [opaqueValues_append]
      intro other hother
      rcases List.mem_append.mp hother with hold | hnew
      · exact h.unparsed other hold
      · have heq : other = value := List.mem_singleton.mp hnew
        exact heq ▸ hparsed
    · rw [knownSlots_append]
      exact List.append_nil _

variable {entries : List JsonParsed}

theorem Documented.applyEntries (hentries : ∀ entry ∈ entries, Parsed entry)
    (h : state.Documented) (hseen : knownSlots state.jsonSlots = seen) :
    (applyEntries entries seen state).Documented := by
  induction entries generalizing seen state with
  | nil => exact h
  | cons entry _ ih =>
    obtain ⟨hnext, hslots⟩ := applyParsed_documented h hseen (hentries entry List.mem_cons_self)
    exact ih (fun entry hentry => hentries entry (List.mem_cons_of_mem _ hentry)) hnext hslots

theorem parseDocument_parsed {json : JsonLibrary} {source : String}
    (h : parseDocument json source = .ok entries) : ∀ entry ∈ entries, Parsed entry := by
  unfold parseDocument at h
  split at h
  · cases h
  split at h
  · cases h
  split at h
  · cases h
  split at h
  · cases h
  cases h
  intro entry hentry
  obtain ⟨value, _, rfl⟩ := List.mem_map.mp hentry
  exact parseEntry_parsed value

end ManagedInputBinds

namespace ManagedOp

open ManagedInputBinds ManagedWorld

theorem step_documented (platform : ManagedPlatform) {world : ManagedWorld}
    (h : world.toManagedInputBinds.Documented) (op : ManagedOp) :
    (op.step platform world).toManagedInputBinds.Documented := by
  by_cases hload : ∃ source, op = .loadJson source
  · obtain ⟨source, rfl⟩ := hload
    rw [step_load]
    split
    next hparse =>
      have hempty : Documented { world.toManagedInputBinds with jsonSlots := [] } :=
        ⟨h.valid, h.mapping, List.nodup_nil, fun value hvalue => absurd hvalue List.not_mem_nil⟩
      exact hempty.applyEntries (parseDocument_parsed hparse) rfl
    next => exact h
  · exact h.moves (step_moves platform world fun source heq => hload ⟨source, heq⟩)

theorem run_documented (platform : ManagedPlatform) (ops : List ManagedOp) :
    (run platform ops).toManagedInputBinds.Documented := by
  induction ops using List.reverseRecOn with
  | nil => exact default_documented
  | append_singleton _ op ih =>
    rw [run_append]
    exact step_documented platform ih op

end ManagedOp

end Nexus
