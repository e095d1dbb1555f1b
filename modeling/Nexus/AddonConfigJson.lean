import Nexus.AddonConfig
import Nexus.JsonText

namespace Nexus

def maxConfigBytes : Nat := 8 * 1024 * 1024

def maxConfigEntries : Nat := 16384

namespace UpdateMode

def code : UpdateMode → Nat
  | .none => 0
  | .background => 1
  | .notify => 2
  | .automatic => 3

def fromLegacy (value : Nat) : Option UpdateMode :=
  match value with
  | 0 => some .background
  | 1 => some .background
  | 2 => some .notify
  | 3 => some .automatic
  | _ => Option.none

def reloaded : UpdateMode → UpdateMode
  | .none => .background
  | mode => mode

theorem fromLegacy_code (mode : UpdateMode) : fromLegacy mode.code = some mode.reloaded := by
  cases mode <;> rfl

end UpdateMode

inductive ConfigSetter where
  | favorite (favorite : Bool)
  | updateMode (mode : UpdateMode)
  | allowPrereleases (allow : Bool)
  | enabled (enabled : Bool)
  | disableVersion (revision : String)
  | lastGameBuild (build : Fin (2 ^ 32))
  | lastName (name : String)

def ConfigSetter.apply (config : AddonConfig) : ConfigSetter → AddonConfig
  | .favorite marked => { config with favorite := marked }
  | .updateMode mode => { config with updateMode := mode }
  | .allowPrereleases allow => { config with allowPrereleases := allow }
  | .enabled launch => { config with enabled := launch }
  | .disableVersion revision => { config with disableVersion := revision }
  | .lastGameBuild build => { config with lastGameBuild := build.val }
  | .lastName name => { config with lastName := name }

def knownKeys : List String :=
  ["Signature", "IsFavorite", "UpdateMode", "AllowPrereleases", "IsLoaded", "DisableVersion",
    "LastGameBuild", "Name"]

def readBool (object : JsonMembers) (key : String) (default : Bool) : Option Bool :=
  match object.get key with
  | none => some default
  | some value => value.asBool

def readString (object : JsonMembers) (key : String) (default : String) : Option String :=
  match object.get key with
  | none => some default
  | some value => value.asStr

def toU32 (value : Nat) : Option Nat := if value < 2 ^ 32 then some value else none

def readU32 (object : JsonMembers) (key : String) (default : Nat) : Option Nat :=
  match object.get key with
  | none => some default
  | some value => value.asU64.bind toU32

def readPausing (object : JsonMembers) : Option UpdateMode :=
  match object.get "IsPausingUpdates" with
  | none => some .automatic
  | some value => value.asBool.map fun pausing => if pausing then .background else .automatic

def readUpdateMode (object : JsonMembers) (pausing : UpdateMode) : Option UpdateMode :=
  match object.get "UpdateMode" with
  | none => some pausing
  | some value => value.asU64.bind UpdateMode.fromLegacy

def parseConfig (object : JsonMembers) : Option AddonConfig := do
  let pausing ← readPausing object
  let updateMode ← readUpdateMode object pausing
  let favorite ← readBool object "IsFavorite" false
  let allowPrereleases ← readBool object "AllowPrereleases" false
  let enabled ← readBool object "IsLoaded" false
  let disableVersion ← readString object "DisableVersion" ""
  let lastGameBuild ← readU32 object "LastGameBuild" 0
  let lastName ← readString object "Name" ""
  return ⟨favorite, updateMode, allowPrereleases, enabled, disableVersion, lastGameBuild, lastName,
    true⟩

def readSignature (object : JsonMembers) : Option Nat := do
  let value ← object.get "Signature"
  let signature ← value.asU64
  (toU32 signature).filter fun signature => signature ≠ 0

def parseKnownObject (object : JsonMembers) : Option KnownEntry := do
  let signature ← readSignature object
  let config ← parseConfig object
  return ⟨signature, config, knownKeys.foldl JsonMembers.remove object⟩

def parseKnownEntry (value : JsonValue) : Option KnownEntry :=
  value.asObject.bind parseKnownObject

def knownMembers (entry : KnownEntry) : JsonMembers :=
  let object : JsonMembers := entry.unknown
  let object := object.insert "Signature" (.number (.posInt entry.signature))
  let object := object.insert "IsFavorite" (.bool entry.config.favorite)
  let object := object.insert "UpdateMode" (.number (.posInt entry.config.updateMode.code))
  let object := object.insert "AllowPrereleases" (.bool entry.config.allowPrereleases)
  let object := object.insert "IsLoaded" (.bool entry.config.enabled)
  let object := object.insert "DisableVersion" (.string entry.config.disableVersion)
  let object := object.insert "LastGameBuild" (.number (.posInt entry.config.lastGameBuild))
  object.insert "Name" (.string entry.config.lastName)

def knownToValue (entry : KnownEntry) : JsonValue := .object (knownMembers entry)

namespace AddonConfigDocument

/-- The entries of a document. The first valid one of a signature is the known one. -/
def classify : List Nat → List JsonValue → List ConfigEntry
  | _, [] => []
  | seen, value :: rest =>
    match parseKnownEntry value with
    | none => .opaqueValue value :: classify seen rest
    | some known =>
      if known.signature ∈ seen then .opaqueValue value :: classify seen rest
      else .known known :: classify (known.signature :: seen) rest

def parse (json : JsonLibrary) (source : String) : Except ConfigError AddonConfigDocument :=
  if maxConfigBytes < source.utf8ByteSize then .error .tooLarge
  else
    match json.parse source with
    | none => .error .malformedJson
    | some root =>
      match root.asArray with
      | none => .error .rootNotArray
      | some values =>
        if maxConfigEntries < values.length then .error .tooManyEntries
        else .ok ⟨classify [] values⟩

def savedValue : ConfigEntry → Option JsonValue
  | .known entry => if entry.config.persist then some (knownToValue entry) else none
  | .opaqueValue value => some value

def savedValues (document : AddonConfigDocument) : List JsonValue :=
  document.entries.filterMap savedValue

def text (json : JsonLibrary) (document : AddonConfigDocument) : String :=
  JsonText.render json.floatText 0 (.array document.savedValues) ++ "\n"

/-- Printing does not fail; the printed text is bounded, the number of entries is not. -/
def toJson (json : JsonLibrary) (document : AddonConfigDocument) : Except ConfigError String :=
  if maxConfigBytes < (document.text json).utf8ByteSize then .error .tooLarge
  else .ok (document.text json)

def keeps (signature : Nat) : ConfigEntry → Bool
  | .known entry => entry.signature ≠ signature
  | .opaqueValue (.object members) =>
    ((JsonMembers.get members "Signature").bind JsonValue.asU64).all fun value => value ≠ signature
  | .opaqueValue _ => true

def remove (document : AddonConfigDocument) (signature : Nat) : AddonConfigDocument :=
  ⟨document.entries.filter (keeps signature)⟩

end AddonConfigDocument

inductive ConfigOp where
  | getOrInsert (signature : Fin (2 ^ 32)) (setters : List ConfigSetter)
  | remove (signature : Fin (2 ^ 32))

namespace ConfigOp

def apply (document : AddonConfigDocument) : ConfigOp → AddonConfigDocument
  | .getOrInsert signature setters =>
    match document.getOrInsert signature.val fun config =>
        setters.foldl ConfigSetter.apply config with
    | .ok next => next
    | .error _ => document
  | .remove signature => document.remove signature.val

def run (document : AddonConfigDocument) (ops : List ConfigOp) : AddonConfigDocument :=
  ops.foldl apply document

end ConfigOp

end Nexus
