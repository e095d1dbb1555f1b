import Nexus.InputBind
import Nexus.Json

namespace Nexus

def maxDocumentBytes : Nat := 8 * 1024 * 1024

def maxBindings : Nat := 16384

def maxIdentifierBytes : Nat := 1024

structure OwnerGeneration where
  owner : Nat
  generation : Nat
  deriving DecidableEq

/-- Callback shapes; what a callback does when it runs is an answer of the environment. -/
inductive Callback where
  | onlyAsync
  | releaseAsync
  | release
  deriving DecidableEq

structure RegisteredCallback where
  owner : OwnerGeneration
  callback : Callback
  marker : Nat
  deriving DecidableEq

structure Mapping where
  binding : InputBind
  passthrough : Bool
  callback : Option RegisteredCallback
  extraJson : JsonMembers

def Mapping.default : Mapping := ⟨.default, false, none, []⟩

inductive JsonSlot where
  | known (identifier : String)
  | opaqueValue (value : JsonValue)

inductive SetBindError where
  | invalidIdentifier
  | conflict (identifier : String)
  | foreignHandler
  deriving DecidableEq

inductive PersistenceError where
  | invalidJson
  | invalidXml
  | limitExceeded
  | io
  deriving DecidableEq

structure LoadReport where
  loaded : Nat
  skipped : Nat
  deriving DecidableEq

def validIdentifier (identifier : String) : Bool :=
  identifier ≠ "" ∧ identifier.utf8ByteSize ≤ maxIdentifierBytes ∧
    identifier.toList.all fun c => c ≠ Char.ofNat 0

def validateIdentifier (identifier : String) : Except SetBindError Unit :=
  if validIdentifier identifier then .ok () else .error .invalidIdentifier

/-- The first other identifier with the exact bound combination. -/
def findConflict (registry : SortedMap String Mapping) (identifier : String)
    (binding : InputBind) : Option String :=
  if binding.isBound then
    (registry.toList.find? fun item => item.1 ≠ identifier ∧ item.2.binding = binding).map Prod.fst
  else none

def toUnsigned (width : Nat) (value : Nat) : Option (Fin (2 ^ width)) :=
  if h : value < 2 ^ width then some ⟨value, h⟩ else none

theorem toUnsigned_val {width : Nat} (value : Fin (2 ^ width)) :
    toUnsigned width value.val = some value := dif_pos value.isLt

def reservedKeys : List String :=
  ["Identifier", "Alt", "Ctrl", "Shift", "Type", "Code", "Key", "Passthrough"]

def readFlag (object : JsonMembers) (key : String) : Bool :=
  ((object.get key).bind JsonValue.asBool).getD false

def absentOrNull (object : JsonMembers) (key : String) : Bool :=
  ((object.get key).map JsonValue.isNull).getD true

def parseDeviceCode (object : JsonMembers) : Option (InputDevice × Fin (2 ^ 16)) :=
  if absentOrNull object "Type" = false ∧ absentOrNull object "Code" = false then do
    let device ← (← (← object.get "Type").asU64) |> toUnsigned 32
    let code ← (← (← object.get "Code").asU64) |> toUnsigned 16
    return (⟨device⟩, code)
  else do
    let code ← (← (← object.get "Key").asU64) |> toUnsigned 16
    return (.keyboard, code)

def parseObject (object : JsonMembers) : Option (String × InputBind × Bool × JsonMembers) := do
  let identifier ← (← object.get "Identifier").asStr
  if validIdentifier identifier = false then none
  else if absentOrNull object "Key" ∧ absentOrNull object "Code" then none
  else
    let (device, code) ← parseDeviceCode object
    let binding : InputBind :=
      ⟨readFlag object "Alt", readFlag object "Ctrl", readFlag object "Shift", device, code⟩
    return (identifier, binding.normalized, readFlag object "Passthrough",
      reservedKeys.foldl JsonMembers.remove object)

def parseJsonMapping (value : JsonValue) : Option (String × InputBind × Bool × JsonMembers) :=
  value.asObject.bind parseObject

def mappingToJson (identifier : String) (mapping : Mapping) : JsonValue :=
  let object := mapping.extraJson
  let object := object.insert "Identifier" (.string identifier)
  let object := object.insert "Alt" (.bool mapping.binding.alt)
  let object := object.insert "Ctrl" (.bool mapping.binding.control)
  let object := object.insert "Shift" (.bool mapping.binding.shift)
  let object := object.insert "Type" (.number (.posInt
    (if mapping.binding.code = 0 then InputDevice.none else mapping.binding.device).raw))
  let object := object.insert "Code" (.number (.posInt mapping.binding.code))
  let object := object.insert "Passthrough" (.bool mapping.passthrough)
  .object object

inductive JsonParsed where
  | known (identifier : String) (binding : InputBind) (passthrough : Bool) (extras : JsonMembers)
  | opaqueValue (value : JsonValue)

def JsonParsed.isKnown : JsonParsed → Bool
  | .known .. => true
  | .opaqueValue _ => false

def parseEntry (value : JsonValue) : JsonParsed :=
  match parseJsonMapping value with
  | some (identifier, binding, passthrough, extras) => .known identifier binding passthrough extras
  | none => .opaqueValue value

theorem parseObject_spec {object : JsonMembers} {identifier : String} {binding : InputBind}
    {passthrough : Bool} {extras : JsonMembers}
    (h : parseObject object = some (identifier, binding, passthrough, extras)) :
    validIdentifier identifier = true ∧ binding.normalized = binding ∧
      extras = reservedKeys.foldl JsonMembers.remove object := by
  unfold parseObject at h
  obtain ⟨_, _, h⟩ := Option.bind_eq_some_iff.mp h
  obtain ⟨_, _, h⟩ := Option.bind_eq_some_iff.mp h
  split at h
  next => cases h
  next hvalid =>
    split at h
    next => cases h
    next =>
      obtain ⟨⟨_, _⟩, _, h⟩ := Option.bind_eq_some_iff.mp h
      cases h
      exact ⟨by simpa using hvalid, InputBind.normalized_normalized _, rfl⟩

end Nexus
