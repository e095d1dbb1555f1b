import Nexus.AddonConfigEntries
import Mathlib.Data.List.Induction
import Mathlib.Data.List.Nodup

namespace Nexus

namespace AddonConfigDocument

variable (json : JsonLibrary)

def rereadEntry : ConfigEntry → ConfigEntry
  | .known entry => .known (reloadedKnown (rereadUnknown json entry))
  | .opaqueValue value => .opaqueValue (json.reread value)

def reloadedEntry : ConfigEntry → ConfigEntry
  | .known entry => .known (reloadedKnown entry)
  | .opaqueValue value => .opaqueValue value

/-- Every number that an entry keeps unread is read back as it was printed. -/
def StableEntry : ConfigEntry → Prop
  | .known entry => json.rereadMembers entry.unknown = entry.unknown
  | .opaqueValue value => json.reread value = value

theorem rereadEntry_eq_iff (entry : ConfigEntry) :
    rereadEntry json entry = reloadedEntry entry ↔ StableEntry json entry := by
  cases entry with
  | known entry =>
    constructor
    · intro heq
      have hknown := ConfigEntry.known.inj heq
      exact congrArg KnownEntry.unknown hknown
    · intro hstable
      have hunknown : json.rereadMembers entry.unknown = entry.unknown := hstable
      show ConfigEntry.known (reloadedKnown (rereadUnknown json entry)) = .known _
      unfold rereadUnknown
      rw [hunknown]
  | opaqueValue =>
    constructor
    · intro heq
      exact ConfigEntry.opaqueValue.inj heq
    · intro hstable
      exact congrArg ConfigEntry.opaqueValue hstable

variable {entries : List ConfigEntry} {seen : List Nat}

theorem classify_saved (h : Classified seen entries) :
    classify seen ((entries.filterMap savedValue).map json.reread) =
      entries.map (rereadEntry json) := by
  induction entries generalizing seen with
  | nil => rfl
  | cons entry _ ih =>
    cases entry with
    | known entry =>
      obtain ⟨hentry, hfresh, hrest⟩ := h
      have hvalue : savedValue (.known entry) = some (knownToValue entry) :=
        if_pos hentry.persist
      have hparse : parseKnownEntry (json.reread (knownToValue entry)) =
          some (reloadedKnown (rereadUnknown json entry)) := by
        rw [reread_knownToValue]
        exact parseKnownEntry_knownToValue (rereadUnknown_documented json hentry)
      rw [List.filterMap_cons_some hvalue, List.map_cons, classify, hparse]
      dsimp only
      rw [if_neg (show (reloadedKnown (rereadUnknown json entry)).signature ∉ seen from hfresh)]
      exact congrArg _ (ih hrest)
    | opaqueValue value =>
      obtain ⟨hlater, hrest⟩ := h
      have hvalue : savedValue (.opaqueValue value) = some value := rfl
      rw [List.filterMap_cons_some hvalue, List.map_cons, classify, parseKnownEntry_reread]
      rcases hparse : parseKnownEntry value with _ | known
      · exact congrArg _ (ih hrest)
      · -- a later entry of a signature that has a known one stays opaque
        have hseen : (rereadUnknown json known).signature ∈ seen := hlater known hparse
        rw [Option.map_some]
        dsimp only
        rw [if_pos hseen]
        exact congrArg _ (ih hrest)

theorem savedValues_length (h : Classified seen entries) :
    (entries.filterMap savedValue).length = entries.length := by
  induction entries generalizing seen with
  | nil => rfl
  | cons entry _ ih =>
    cases entry with
    | known entry =>
      have hvalue : savedValue (.known entry) = some (knownToValue entry) := if_pos h.1.persist
      rw [List.filterMap_cons_some hvalue, List.length_cons, List.length_cons, ih h.2.2]
    | opaqueValue value =>
      have hvalue : savedValue (.opaqueValue value) = some value := rfl
      rw [List.filterMap_cons_some hvalue, List.length_cons, List.length_cons, ih h.2]

def savedBytes (document : AddonConfigDocument) : Nat :=
  JsonText.bytes json.floatText 0 (.array document.savedValues) + 1

theorem utf8ByteSize_text (document : AddonConfigDocument) :
    (document.text json).utf8ByteSize = document.savedBytes json := by
  have hline : "\n".utf8ByteSize = 1 := rfl
  unfold text savedBytes
  rw [String.utf8ByteSize_append, JsonText.utf8ByteSize_render, hline]

/-- What is saved is loaded with the same entries in the same order, each of the same class. -/
def Reloads (document : AddonConfigDocument) : Prop :=
  ∀ text, document.toJson json = .ok text →
    ∃ next, parse json text = .ok next ∧ next.entries = document.entries.map reloadedEntry

theorem reloads_iff_of_classified {document : AddonConfigDocument}
    (h : Classified [] document.entries)
    (hparse : json.parse (document.text json) =
      some (json.reread (.array document.savedValues))) :
    document.Reloads json ↔ maxConfigBytes < document.savedBytes json ∨
      (document.entries.length ≤ maxConfigEntries ∧
        ∀ entry ∈ document.entries, StableEntry json entry) := by
  have hlength : (document.savedValues.map json.reread).length = document.entries.length := by
    rw [List.length_map]
    exact savedValues_length h
  by_cases hbytes : maxConfigBytes < document.savedBytes json
  · refine iff_of_true (fun text htext => ?_) (Or.inl hbytes)
    unfold toJson at htext
    rw [utf8ByteSize_text, if_pos hbytes] at htext
    cases htext
  have htext : document.toJson json = .ok (document.text json) := by
    unfold toJson
    rw [utf8ByteSize_text, if_neg hbytes]
  have hload : parse json (document.text json) =
      if maxConfigEntries < document.entries.length then .error .tooManyEntries
      else .ok ⟨document.entries.map (rereadEntry json)⟩ := by
    unfold parse
    rw [utf8ByteSize_text, if_neg hbytes, hparse]
    simp only [JsonLibrary.reread, JsonValue.asArray]
    rw [json.rereadValues_eq, hlength]
    unfold savedValues
    rw [classify_saved json h]
  rw [or_iff_right hbytes]
  constructor
  · intro hreloads
    obtain ⟨next, hnext, hentries⟩ := hreloads _ htext
    rw [hload] at hnext
    split at hnext
    · cases hnext
    next hcount =>
    cases hnext
    refine ⟨not_lt.mp hcount, fun entry hentry => ?_⟩
    exact (rereadEntry_eq_iff json entry).mp (List.map_inj_left.mp hentries entry hentry)
  · rintro ⟨hcount, hstable⟩ text hok
    rw [htext] at hok
    cases hok
    refine ⟨_, hload.trans (if_neg (not_lt.mpr hcount)), ?_⟩
    exact List.map_congr_left fun entry hentry =>
      (rereadEntry_eq_iff json entry).mpr (hstable entry hentry)

/-- A library that reads one saved document, without a float in it. -/
def readerOf (document : AddonConfigDocument) : JsonLibrary where
  parse text :=
    if text = JsonText.render (fun _ => "0.0") 0 (.array document.savedValues) ++ "\n" then
      some (.array document.savedValues)
    else none
  floatText _ := "0.0"
  rereadFloat := id

theorem readerOf_parse (document : AddonConfigDocument) :
    (readerOf document).parse (document.text (readerOf document)) =
      some ((readerOf document).reread (.array document.savedValues)) := by
  rw [(readerOf document).reread_of_exact fun _ => rfl]
  exact if_pos rfl

end AddonConfigDocument

namespace ConfigOp

open AddonConfigDocument

/-- A saved document is loaded as it was exactly when it has no more entries than the loader
accepts and the numbers it keeps unread are read back as they were printed. -/
theorem saved_config_reloads_iff (json : JsonLibrary) (start : AddonConfigDocument)
    (hstart : start = .new ∨ ∃ source, parse json source = .ok start) (ops : List ConfigOp)
    (hparse : json.parse ((run start ops).text json) =
      some (json.reread (.array (run start ops).savedValues))) :
    (run start ops).Reloads json ↔ maxConfigBytes < (run start ops).savedBytes json ∨
      ((run start ops).entries.length ≤ maxConfigEntries ∧
        ∀ entry ∈ (run start ops).entries, StableEntry json entry) := by
  have hclassified : Classified [] start.entries := by
    rcases hstart with rfl | ⟨source, hsource⟩
    · trivial
    · exact parse_classified hsource
  exact reloads_iff_of_classified json (run_classified hclassified ops) hparse

def oneSignature : AddonConfigDocument := run .new [.getOrInsert ⟨7, by decide⟩ [.enabled false]]

theorem saved_config_reloads_iff_registered :
    oneSignature.Reloads (readerOf oneSignature) ↔
      maxConfigBytes < oneSignature.savedBytes (readerOf oneSignature) ∨
        (oneSignature.entries.length ≤ maxConfigEntries ∧
          ∀ entry ∈ oneSignature.entries, StableEntry (readerOf oneSignature) entry) :=
  saved_config_reloads_iff (readerOf oneSignature) .new (Or.inl rfl)
    [.getOrInsert ⟨7, by decide⟩ [.enabled false]] (readerOf_parse oneSignature)

def registeredEntry (signature : Fin (2 ^ 32)) : KnownEntry :=
  ⟨signature.val, .registeredDefault, []⟩

variable {signature : Fin (2 ^ 32)} {signatures : List (Fin (2 ^ 32))}

theorem updateFirst_fresh (hfresh : signature ∉ signatures) :
    updateFirst signature.val (fun config => ([] : List ConfigSetter).foldl ConfigSetter.apply
        config) (signatures.map fun other => .known (registeredEntry other)) =
      (signatures ++ [signature]).map fun other => .known (registeredEntry other) := by
  induction signatures with
  | nil => rfl
  | cons other _ ih =>
    rw [List.mem_cons, not_or] at hfresh
    have hne : (registeredEntry other).signature ≠ signature.val :=
      fun heq => hfresh.1 (Fin.ext heq.symm)
    rw [List.map_cons, updateFirst, if_neg hne, ih hfresh.2]
    rfl

def registered (signatures : List (Fin (2 ^ 32))) : AddonConfigDocument :=
  run .new (signatures.map fun signature => .getOrInsert signature [])

theorem registered_entries (hnodup : signatures.Nodup)
    (hnonzero : ∀ signature ∈ signatures, signature.val ≠ 0) :
    (registered signatures).entries =
      signatures.map fun signature => .known (registeredEntry signature) := by
  induction signatures using List.reverseRecOn with
  | nil => rfl
  | append_singleton rest signature ih =>
    obtain ⟨hrest, _, hdisjoint⟩ := List.nodup_append.mp hnodup
    have hfresh : signature ∉ rest :=
      fun hmem => hdisjoint signature hmem signature List.mem_cons_self rfl
    have hzero : signature.val ≠ 0 :=
      hnonzero signature (List.mem_append_right rest List.mem_cons_self)
    have hentries := ih hrest fun other hother =>
      hnonzero other (List.mem_append_left [signature] hother)
    unfold registered run at hentries ⊢
    rw [List.map_append, List.foldl_append]
    simp only [List.map_cons, List.map_nil, List.foldl_cons, apply,
      AddonConfigDocument.getOrInsert, if_neg hzero]
    rw [hentries]
    exact updateFirst_fresh hfresh

theorem registered_classified (signatures : List (Fin (2 ^ 32))) :
    Classified [] (registered signatures).entries := by
  have hnew : Classified [] AddonConfigDocument.new.entries := trivial
  exact run_classified hnew _

theorem membersBytes_insert_short {floatText : BitVec 64 → String} {members : JsonMembers}
    {bound : Nat} (h : JsonText.membersBytes floatText 2 1 members ≤ bound) {key : String}
    (hkey : JsonText.stringBytes key ≤ 18) {value : JsonValue}
    (hvalue : JsonText.bytes floatText 2 value ≤ 5) :
    JsonText.membersBytes floatText 2 1 (members.insert key value) ≤ bound + 29 := by
  have hinsert := JsonText.membersBytes_insert_le floatText 2 members key value
  omega

theorem bytes_registeredEntry (floatText : BitVec 64 → String) (h : signature.val < 10 ^ 5) :
    JsonText.bytes floatText 1 (knownToValue (registeredEntry signature)) ≤ 240 := by
  have hsignature : signature.val.repr.utf8ByteSize ≤ 5 := utf8ByteSize_repr_le (by decide) h
  have hflag (flag : Bool) : JsonText.bytes floatText 2 (.bool flag) ≤ 5 := by
    cases flag
    · exact le_of_eq (by rw [JsonText.bytes])
    · exact le_trans (le_of_eq (by rw [JsonText.bytes])) (by decide : 4 ≤ 5)
  have hnumber {n : Nat} (hn : n.repr.utf8ByteSize ≤ 5) :
      JsonText.bytes floatText 2 (.number (.posInt n)) ≤ 5 := by
    rw [JsonText.bytes]
    exact hn
  have hzero : JsonText.bytes floatText 2 (.number (.posInt 0)) ≤ 5 := hnumber (by decide)
  have hmode : UpdateMode.automatic.code.repr.utf8ByteSize ≤ 5 := by decide
  have hempty : JsonText.bytes floatText 2 (.string "") ≤ 5 := by
    rw [JsonText.bytes]
    decide
  have hmembers : JsonText.membersBytes floatText 2 1 (knownMembers (registeredEntry signature)) ≤
      0 + 29 + 29 + 29 + 29 + 29 + 29 + 29 + 29 := by
    have hnil : JsonText.membersBytes floatText 2 1 [] ≤ 0 := le_of_eq (by rw [JsonText.membersBytes])
    have hsigned := membersBytes_insert_short hnil (by decide : JsonText.stringBytes "Signature" ≤ 18)
      (hnumber hsignature)
    unfold knownMembers
    refine membersBytes_insert_short ?_ (by decide) hempty
    refine membersBytes_insert_short ?_ (by decide) hzero
    refine membersBytes_insert_short ?_ (by decide) hempty
    refine membersBytes_insert_short ?_ (by decide) (hflag _)
    refine membersBytes_insert_short ?_ (by decide) (hflag _)
    refine membersBytes_insert_short ?_ (by decide) (hnumber hmode)
    refine membersBytes_insert_short ?_ (by decide) (hflag _)
    exact hsigned
  have hobject := JsonText.bytes_object_le floatText 1 (knownMembers (registeredEntry signature))
  rw [show 1 + 1 = 2 from rfl] at hobject
  unfold knownToValue
  omega

theorem savedBytes_registered_le (json : JsonLibrary) (hnodup : signatures.Nodup)
    (hnonzero : ∀ signature ∈ signatures, signature.val ≠ 0)
    (hsmall : ∀ signature ∈ signatures, signature.val < 10 ^ 5) :
    (registered signatures).savedBytes json ≤ signatures.length * 243 + 4 := by
  have hentries := registered_entries hnodup hnonzero
  have hshort : ∀ value ∈ (registered signatures).savedValues,
      JsonText.bytes json.floatText (0 + 1) value ≤ 240 := by
    intro value hvalue
    obtain ⟨_, hentry, hsaved⟩ := List.mem_filterMap.mp hvalue
    rw [hentries] at hentry
    obtain ⟨signature, hsignature, rfl⟩ := List.mem_map.mp hentry
    cases hsaved
    exact bytes_registeredEntry _ (hsmall signature hsignature)
  have hlength : (registered signatures).savedValues.length = signatures.length := by
    unfold savedValues
    rw [savedValues_length (registered_classified signatures), hentries, List.length_map]
  have harray := JsonText.bytes_array_le json.floatText 0 hshort
  rw [hlength] at harray
  unfold savedBytes
  omega

theorem not_reloads_registered (hnodup : signatures.Nodup)
    (hnonzero : ∀ signature ∈ signatures, signature.val ≠ 0)
    (hsmall : ∀ signature ∈ signatures, signature.val < 10 ^ 5)
    (hlong : maxConfigEntries < signatures.length)
    (hfits : signatures.length * 243 + 4 ≤ maxConfigBytes) :
    ¬(registered signatures).Reloads (readerOf (registered signatures)) := by
  have hbytes := savedBytes_registered_le (readerOf (registered signatures)) hnodup hnonzero hsmall
  rw [reloads_iff_of_classified _ (registered_classified signatures) (readerOf_parse _)]
  rintro (hlarge | ⟨hcount, _⟩)
  · exact absurd (hbytes.trans hfits) (not_le.mpr hlarge)
  · rw [registered_entries hnodup hnonzero, List.length_map] at hcount
    exact absurd hcount (not_le.mpr hlong)

def signatureAt (n : Nat) : Fin (2 ^ 32) := ⟨(n + 1) % 2 ^ 32, Nat.mod_lt _ (by decide)⟩

def manySignatures : List (Fin (2 ^ 32)) := (List.range (maxConfigEntries + 1)).map signatureAt

theorem signatureAt_val {n : Nat} (h : n < maxConfigEntries + 1) :
    (signatureAt n).val = n + 1 := by
  have hlt : n + 1 < 2 ^ 32 := lt_trans (Nat.succ_lt_succ h) (by decide)
  exact Nat.mod_eq_of_lt hlt

theorem manySignatures_nodup : manySignatures.Nodup := by
  refine List.Nodup.map_on (fun m hm n hn heq => ?_) List.nodup_range
  have hval := congrArg Fin.val heq
  rw [signatureAt_val (List.mem_range.mp hm), signatureAt_val (List.mem_range.mp hn)] at hval
  omega

theorem manySignatures_bounds :
    ∀ signature ∈ manySignatures, signature.val ≠ 0 ∧ signature.val < 10 ^ 5 := by
  intro signature hmem
  obtain ⟨n, hn, rfl⟩ := List.mem_map.mp hmem
  have hsucc : n + 1 ≤ maxConfigEntries + 1 := Nat.succ_le_of_lt (List.mem_range.mp hn)
  rw [signatureAt_val (List.mem_range.mp hn)]
  exact ⟨Nat.succ_ne_zero n, lt_of_le_of_lt hsucc (by decide)⟩

theorem manySignatures_length : manySignatures.length = maxConfigEntries + 1 := by
  unfold manySignatures
  rw [List.length_map, List.length_range]

/-- One signature more than the loader accepts is saved all the same, and the document is then
refused. -/
theorem too_many_configs_not_loaded :
    ∃ json start ops, (start = AddonConfigDocument.new ∨ ∃ source, parse json source = .ok start) ∧
      json.parse ((run start ops).text json) =
        some (json.reread (.array (run start ops).savedValues)) ∧
      ¬(run start ops).Reloads json := by
  have hlong : maxConfigEntries < manySignatures.length := by
    rw [manySignatures_length]
    exact Nat.lt_add_one maxConfigEntries
  have hfits : manySignatures.length * 243 + 4 ≤ maxConfigBytes := by
    rw [manySignatures_length]
    decide
  exact ⟨readerOf (registered manySignatures), .new, _, Or.inl rfl,
    readerOf_parse (registered manySignatures),
    not_reloads_registered manySignatures_nodup
      (fun signature hmem => (manySignatures_bounds signature hmem).1)
      (fun signature hmem => (manySignatures_bounds signature hmem).2) hlong hfits⟩

end ConfigOp

end Nexus
