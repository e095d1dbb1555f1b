import Nexus.AddonConfigJson

namespace Nexus

structure KnownEntry.Documented (entry : KnownEntry) : Prop where
  nonzero : entry.signature ≠ 0
  signature : entry.signature < 2 ^ 32
  build : entry.config.lastGameBuild < 2 ^ 32
  persist : entry.config.persist = true
  unknown : ∀ key ∈ knownKeys, JsonMembers.get entry.unknown key = none
  pausing : (readPausing entry.unknown).isSome

variable {value found : Nat}

theorem toU32_some (h : toU32 value = some found) : found = value ∧ found < 2 ^ 32 := by
  unfold toU32 at h
  split at h
  next hlt =>
    cases h
    exact ⟨rfl, hlt⟩
  next => cases h

variable {object : JsonMembers}

theorem readU32_lt {key : String} {default : Nat} (hdefault : default < 2 ^ 32)
    (h : readU32 object key default = some found) : found < 2 ^ 32 := by
  unfold readU32 at h
  split at h
  next =>
    cases h
    exact hdefault
  next =>
    obtain ⟨_, _, hnumber⟩ := Option.bind_eq_some_iff.mp h
    exact (toU32_some hnumber).2

theorem readSignature_some {signature : Nat} (h : readSignature object = some signature) :
    signature ≠ 0 ∧ signature < 2 ^ 32 ∧
      ∃ value, object.get "Signature" = some value ∧ value.asU64 = some signature := by
  obtain ⟨value, hvalue, h⟩ := Option.bind_eq_some_iff.mp h
  obtain ⟨_, hnumber, h⟩ := Option.bind_eq_some_iff.mp h
  obtain ⟨hfits, hnonzero⟩ := Option.filter_eq_some_iff.mp h
  obtain ⟨rfl, hlt⟩ := toU32_some hfits
  exact ⟨by simpa using hnonzero, hlt, value, hvalue, hnumber⟩

theorem readPausing_removed (object : JsonMembers) :
    readPausing (knownKeys.foldl JsonMembers.remove object) = readPausing object := by
  unfold readPausing
  rw [JsonMembers.get_foldl_remove, if_neg (by decide)]

theorem parseConfig_some {config : AddonConfig} (h : parseConfig object = some config) :
    config.lastGameBuild < 2 ^ 32 ∧ config.persist = true ∧ (readPausing object).isSome := by
  obtain ⟨_, hpausing, h⟩ := Option.bind_eq_some_iff.mp h
  obtain ⟨_, _, h⟩ := Option.bind_eq_some_iff.mp h
  obtain ⟨_, _, h⟩ := Option.bind_eq_some_iff.mp h
  obtain ⟨_, _, h⟩ := Option.bind_eq_some_iff.mp h
  obtain ⟨_, _, h⟩ := Option.bind_eq_some_iff.mp h
  obtain ⟨_, _, h⟩ := Option.bind_eq_some_iff.mp h
  obtain ⟨lastGameBuild, hbuild, h⟩ := Option.bind_eq_some_iff.mp h
  obtain ⟨_, _, h⟩ := Option.bind_eq_some_iff.mp h
  cases h
  refine ⟨readU32_lt (by decide) hbuild, rfl, ?_⟩
  rw [hpausing]
  rfl

variable {entry : KnownEntry}

theorem parseKnownEntry_some {value : JsonValue} (h : parseKnownEntry value = some entry) :
    entry.Documented ∧ ∃ members found, value = .object members ∧
      JsonMembers.get members "Signature" = some found ∧ found.asU64 = some entry.signature := by
  obtain ⟨members, hmembers, h⟩ := Option.bind_eq_some_iff.mp h
  obtain ⟨signature, hsignature, h⟩ := Option.bind_eq_some_iff.mp h
  obtain ⟨_, hconfig, h⟩ := Option.bind_eq_some_iff.mp h
  cases h
  obtain ⟨hnonzero, hlt, found, hfound, hnumber⟩ := readSignature_some hsignature
  obtain ⟨hbuild, hpersist, hpausing⟩ := parseConfig_some hconfig
  have hvalue : value = .object members := by
    cases value with
    | object => exact congrArg JsonValue.object (Option.some.inj hmembers)
    | _ => cases hmembers
  refine ⟨⟨hnonzero, hlt, hbuild, hpersist, fun key hkey => ?_, ?_⟩, members, found, hvalue,
    hfound, hnumber⟩
  · rw [JsonMembers.get_foldl_remove, if_pos hkey]
  · rw [readPausing_removed]
    exact hpausing

theorem ConfigSetter.apply_spec (config : AddonConfig) (setter : ConfigSetter)
    (hbuild : config.lastGameBuild < 2 ^ 32) :
    (setter.apply config).lastGameBuild < 2 ^ 32 ∧
      (setter.apply config).persist = config.persist := by
  cases setter with
  | lastGameBuild build => exact ⟨build.isLt, rfl⟩
  | _ => exact ⟨hbuild, rfl⟩

theorem setters_spec (setters : List ConfigSetter) (config : AddonConfig)
    (hbuild : config.lastGameBuild < 2 ^ 32) :
    (setters.foldl ConfigSetter.apply config).lastGameBuild < 2 ^ 32 ∧
      (setters.foldl ConfigSetter.apply config).persist = config.persist := by
  induction setters generalizing config with
  | nil => exact ⟨hbuild, rfl⟩
  | cons setter _ ih =>
    obtain ⟨hnext, hpersist⟩ := ConfigSetter.apply_spec config setter hbuild
    obtain ⟨hlast, hsame⟩ := ih (setter.apply config) hnext
    exact ⟨hlast, hsame.trans hpersist⟩

namespace AddonConfigDocument

/-- The entries are those that a parser would make of their values: a known entry is the first of
its signature, an opaque one is invalid or a later one. -/
def Classified : List Nat → List ConfigEntry → Prop
  | _, [] => True
  | seen, .known entry :: rest =>
    entry.Documented ∧ entry.signature ∉ seen ∧ Classified (entry.signature :: seen) rest
  | seen, .opaqueValue value :: rest =>
    (∀ entry, parseKnownEntry value = some entry → entry.signature ∈ seen) ∧ Classified seen rest

theorem classify_classified (values : List JsonValue) (seen : List Nat) :
    Classified seen (classify seen values) := by
  induction values generalizing seen with
  | nil => trivial
  | cons _ _ ih =>
    unfold classify
    split
    next hnone =>
      refine ⟨fun entry hentry => ?_, ih seen⟩
      rw [hnone] at hentry
      cases hentry
    next hknown =>
      split
      next hseen =>
        refine ⟨fun entry hentry => ?_, ih seen⟩
        rw [hknown] at hentry
        cases hentry
        exact hseen
      next hseen => exact ⟨(parseKnownEntry_some hknown).1, hseen, ih _⟩

theorem parse_classified {json : JsonLibrary} {source : String} {document : AddonConfigDocument}
    (h : parse json source = .ok document) : Classified [] document.entries := by
  unfold parse at h
  split at h
  · cases h
  split at h
  · cases h
  split at h
  · cases h
  split at h
  · cases h
  next values _ _ =>
  cases h
  exact classify_classified values []

variable {signature : Nat}

theorem registeredDefault_documented (hnonzero : signature ≠ 0) (hlt : signature < 2 ^ 32)
    (setters : List ConfigSetter) :
    (⟨signature, setters.foldl ConfigSetter.apply .registeredDefault, []⟩ :
      KnownEntry).Documented := by
  obtain ⟨hbuild, hpersist⟩ := setters_spec setters .registeredDefault (by decide)
  exact ⟨hnonzero, hlt, hbuild, hpersist, fun _ _ => rfl, rfl⟩

variable {seen : List Nat}

theorem updateFirst_classified (hnonzero : signature ≠ 0) (hlt : signature < 2 ^ 32)
    (setters : List ConfigSetter) (entries : List ConfigEntry) (hseen : signature ∉ seen)
    (h : Classified seen entries) :
    Classified seen (updateFirst signature
      (fun config => setters.foldl ConfigSetter.apply config) entries) := by
  induction entries generalizing seen with
  | nil => exact ⟨registeredDefault_documented hnonzero hlt setters, hseen, trivial⟩
  | cons entry _ ih =>
    cases entry with
    | opaqueValue => exact ⟨h.1, ih hseen h.2⟩
    | known entry =>
      obtain ⟨hentry, hfresh, hrest⟩ := h
      unfold updateFirst
      split
      next heq =>
        obtain ⟨hbuild, hpersist⟩ := setters_spec setters entry.config hentry.build
        exact ⟨⟨hentry.nonzero, hentry.signature, hbuild, hpersist.trans hentry.persist,
          hentry.unknown, hentry.pausing⟩, hfresh, hrest⟩
      next hne =>
        refine ⟨hentry, hfresh, ih ?_ hrest⟩
        rw [List.mem_cons, not_or]
        exact ⟨fun heq => hne heq.symm, hseen⟩

/-- A removal takes the opaque entries of the signature with it, so that none of them is left
without an earlier known one. -/
theorem keeps_classified (signature : Nat) (entries : List ConfigEntry) {next : List Nat}
    (hseen : ∀ other, other ≠ signature → (other ∈ next ↔ other ∈ seen))
    (h : Classified seen entries) : Classified next (entries.filter (keeps signature)) := by
  induction entries generalizing seen next with
  | nil => trivial
  | cons entry _ ih =>
    cases entry with
    | opaqueValue value =>
      by_cases hkeep : keeps signature (.opaqueValue value) = true
      · rw [List.filter_cons_of_pos hkeep]
        refine ⟨fun entry hentry => ?_, ih hseen h.2⟩
        obtain ⟨_, members, found, rfl, hfound, hnumber⟩ := parseKnownEntry_some hentry
        have hne : entry.signature ≠ signature := by
          have hall : ((JsonMembers.get members "Signature").bind JsonValue.asU64).all
            (fun value => value ≠ signature) = true := hkeep
          rw [hfound] at hall
          have hvalue : (some found).bind JsonValue.asU64 = some entry.signature := hnumber
          rw [hvalue] at hall
          simpa using hall
        exact (hseen entry.signature hne).mpr (h.1 entry hentry)
      · rw [List.filter_cons_of_neg hkeep]
        exact ih hseen h.2
    | known entry =>
      obtain ⟨hentry, hfresh, hrest⟩ := h
      by_cases heq : entry.signature = signature
      · have hdrop : ¬keeps signature (.known entry) = true := by simp [keeps, heq]
        rw [List.filter_cons_of_neg hdrop]
        refine ih (fun other hother => ?_) hrest
        rw [hseen other hother, List.mem_cons]
        exact (or_iff_right fun h => hother (h.trans heq)).symm
      · have hkeep : keeps signature (.known entry) = true := by simp [keeps, heq]
        rw [List.filter_cons_of_pos hkeep]
        refine ⟨hentry, fun hmem => hfresh ((hseen entry.signature heq).mp hmem),
          ih (fun other hother => ?_) hrest⟩
        rw [List.mem_cons, List.mem_cons, hseen other hother]

end AddonConfigDocument

namespace ConfigOp

open AddonConfigDocument

variable {document : AddonConfigDocument}

theorem apply_classified (h : Classified [] document.entries) (op : ConfigOp) :
    Classified [] (apply document op).entries := by
  cases op with
  | getOrInsert signature setters =>
    simp only [apply, AddonConfigDocument.getOrInsert]
    by_cases hzero : signature.val = 0
    · rw [if_pos hzero]
      exact h
    · rw [if_neg hzero]
      exact updateFirst_classified hzero signature.isLt setters document.entries
        List.not_mem_nil h
  | remove signature => exact keeps_classified signature.val document.entries (fun _ _ => Iff.rfl) h

theorem run_classified (h : Classified [] document.entries) (ops : List ConfigOp) :
    Classified [] (run document ops).entries := by
  unfold run
  induction ops generalizing document with
  | nil => exact h
  | cons op _ ih => exact ih (apply_classified h op)

end ConfigOp

def rereadUnknown (json : JsonLibrary) (entry : KnownEntry) : KnownEntry :=
  { entry with unknown := json.rereadMembers entry.unknown }

def reloadedKnown (entry : KnownEntry) : KnownEntry :=
  { entry with config := { entry.config with updateMode := entry.config.updateMode.reloaded } }

section Reread

variable (json : JsonLibrary)

theorem rereadMembers_foldl_remove (keys : List String) (members : JsonMembers) :
    json.rereadMembers (keys.foldl JsonMembers.remove members) =
      keys.foldl JsonMembers.remove (json.rereadMembers members) := by
  induction keys generalizing members with
  | nil => rfl
  | cons _ _ ih => rw [List.foldl_cons, List.foldl_cons, ih, json.remove_rereadMembers]

theorem readBool_reread (object : JsonMembers) (key : String) (default : Bool) :
    readBool (json.rereadMembers object) key default = readBool object key default := by
  unfold readBool
  rw [json.get_rereadMembers]
  cases object.get key with
  | none => rfl
  | some value => exact json.asBool_reread value

theorem readString_reread (object : JsonMembers) (key : String) (default : String) :
    readString (json.rereadMembers object) key default = readString object key default := by
  unfold readString
  rw [json.get_rereadMembers]
  cases object.get key with
  | none => rfl
  | some value => exact json.asStr_reread value

theorem readU32_reread (object : JsonMembers) (key : String) (default : Nat) :
    readU32 (json.rereadMembers object) key default = readU32 object key default := by
  unfold readU32
  rw [json.get_rereadMembers]
  cases object.get key with
  | none => rfl
  | some value => exact congrArg (Option.bind · toU32) (json.asU64_reread value)

theorem readPausing_reread (object : JsonMembers) :
    readPausing (json.rereadMembers object) = readPausing object := by
  unfold readPausing
  rw [json.get_rereadMembers]
  cases object.get "IsPausingUpdates" with
  | none => rfl
  | some value => exact congrArg (Option.map _) (json.asBool_reread value)

theorem readUpdateMode_reread (object : JsonMembers) (pausing : UpdateMode) :
    readUpdateMode (json.rereadMembers object) pausing = readUpdateMode object pausing := by
  unfold readUpdateMode
  rw [json.get_rereadMembers]
  cases object.get "UpdateMode" with
  | none => rfl
  | some value => exact congrArg (Option.bind · UpdateMode.fromLegacy) (json.asU64_reread value)

theorem readSignature_reread (object : JsonMembers) :
    readSignature (json.rereadMembers object) = readSignature object := by
  unfold readSignature
  rw [json.get_rereadMembers]
  cases object.get "Signature" with
  | none => rfl
  | some => simp

theorem parseConfig_reread (object : JsonMembers) :
    parseConfig (json.rereadMembers object) = parseConfig object := by
  unfold parseConfig
  simp only [readPausing_reread, readUpdateMode_reread, readBool_reread, readString_reread,
    readU32_reread]

theorem parseKnownEntry_reread (value : JsonValue) :
    parseKnownEntry (json.reread value) = (parseKnownEntry value).map (rereadUnknown json) := by
  unfold parseKnownEntry
  rw [json.asObject_reread]
  rcases value.asObject with _ | object
  · rfl
  · show parseKnownObject (json.rereadMembers object) = (parseKnownObject object).map _
    unfold parseKnownObject
    rw [readSignature_reread, parseConfig_reread, ← rereadMembers_foldl_remove]
    rcases readSignature object with _ | _
    · rfl
    · rcases parseConfig object with _ | _
      · rfl
      · rfl

theorem reread_knownToValue (entry : KnownEntry) :
    json.reread (knownToValue entry) = knownToValue (rereadUnknown json entry) := by
  unfold knownToValue
  rw [JsonLibrary.reread]
  unfold knownMembers rereadUnknown
  simp only [json.insert_rereadMembers, JsonLibrary.reread, JsonLibrary.rereadNumber]

theorem rereadUnknown_documented {entry : KnownEntry} (h : entry.Documented) :
    (rereadUnknown json entry).Documented := by
  refine ⟨h.nonzero, h.signature, h.build, h.persist, fun key hkey => ?_, ?_⟩
  · show JsonMembers.get (json.rereadMembers entry.unknown) key = none
    rw [json.get_rereadMembers, h.unknown key hkey]
    rfl
  · show (readPausing (json.rereadMembers entry.unknown)).isSome
    rw [readPausing_reread]
    exact h.pausing

end Reread

theorem removed_knownMembers (h : entry.Documented) :
    knownKeys.foldl JsonMembers.remove (knownMembers entry) = entry.unknown := by
  unfold knownMembers
  rw [JsonMembers.foldl_remove_insert (by decide), JsonMembers.foldl_remove_insert (by decide),
    JsonMembers.foldl_remove_insert (by decide), JsonMembers.foldl_remove_insert (by decide),
    JsonMembers.foldl_remove_insert (by decide), JsonMembers.foldl_remove_insert (by decide),
    JsonMembers.foldl_remove_insert (by decide), JsonMembers.foldl_remove_insert (by decide),
    JsonMembers.foldl_remove_of_absent h.unknown]

theorem get_knownMembers (entry : KnownEntry) (key : String) :
    (knownMembers entry).get key =
      if key = "Name" then some (.string entry.config.lastName)
      else if key = "LastGameBuild" then some (.number (.posInt entry.config.lastGameBuild))
      else if key = "DisableVersion" then some (.string entry.config.disableVersion)
      else if key = "IsLoaded" then some (.bool entry.config.enabled)
      else if key = "AllowPrereleases" then some (.bool entry.config.allowPrereleases)
      else if key = "UpdateMode" then some (.number (.posInt entry.config.updateMode.code))
      else if key = "IsFavorite" then some (.bool entry.config.favorite)
      else if key = "Signature" then some (.number (.posInt entry.signature))
      else JsonMembers.get entry.unknown key := by
  unfold knownMembers
  simp only [JsonMembers.get_insert]

theorem toU32_of_lt (h : value < 2 ^ 32) : toU32 value = some value := if_pos h

theorem readPausing_knownMembers (entry : KnownEntry) :
    readPausing (knownMembers entry) = readPausing entry.unknown := by
  unfold readPausing
  rw [get_knownMembers]
  rfl

theorem parseKnownEntry_knownToValue (h : entry.Documented) :
    parseKnownEntry (knownToValue entry) = some (reloadedKnown entry) := by
  obtain ⟨pausing, hpausing⟩ := Option.isSome_iff_exists.mp h.pausing
  have hsignature : readSignature (knownMembers entry) = some entry.signature := by
    unfold readSignature
    rw [get_knownMembers]
    simp [JsonValue.asU64, toU32_of_lt h.signature, h.nonzero]
  have hmode : readUpdateMode (knownMembers entry) pausing =
      some entry.config.updateMode.reloaded := by
    unfold readUpdateMode
    rw [get_knownMembers]
    simp [JsonValue.asU64, UpdateMode.fromLegacy_code]
  have hbuild : readU32 (knownMembers entry) "LastGameBuild" 0 =
      some entry.config.lastGameBuild := by
    unfold readU32
    rw [get_knownMembers]
    simp [JsonValue.asU64, toU32_of_lt h.build]
  have hfavorite : readBool (knownMembers entry) "IsFavorite" false =
      some entry.config.favorite := by
    unfold readBool
    rw [get_knownMembers]
    rfl
  have hallow : readBool (knownMembers entry) "AllowPrereleases" false =
      some entry.config.allowPrereleases := by
    unfold readBool
    rw [get_knownMembers]
    rfl
  have henabled : readBool (knownMembers entry) "IsLoaded" false = some entry.config.enabled := by
    unfold readBool
    rw [get_knownMembers]
    rfl
  have hversion : readString (knownMembers entry) "DisableVersion" "" =
      some entry.config.disableVersion := by
    unfold readString
    rw [get_knownMembers]
    rfl
  have hname : readString (knownMembers entry) "Name" "" = some entry.config.lastName := by
    unfold readString
    rw [get_knownMembers]
    rfl
  have hconfig : parseConfig (knownMembers entry) = some { entry.config with
      updateMode := entry.config.updateMode.reloaded, persist := true } := by
    unfold parseConfig
    rw [readPausing_knownMembers, hpausing]
    simp only [Option.bind_eq_bind, Option.bind_some, hmode, hfavorite, hallow, henabled,
      hversion, hbuild, hname]
    rfl
  show parseKnownObject (knownMembers entry) = _
  unfold parseKnownObject
  rw [hsignature, hconfig, removed_knownMembers h]
  unfold reloadedKnown
  have hpersist := h.persist
  obtain ⟨signature, config, _⟩ := entry
  obtain ⟨favorite, updateMode, _, enabled, _, build, _, persist⟩ := config
  cases hpersist
  rfl

end Nexus
