import Nexus.Fallible
import Nexus.Json

namespace Nexus

inductive UpdateMode where
  | none
  | background
  | notify
  | automatic
  deriving DecidableEq

/-- Whether the persisted configuration may be changed during this process. -/
inductive ConfigAccess where
  | writable
  | readOnlyAllowlist (allowed : List Nat)
  deriving DecidableEq

def ConfigAccess.isWritable : ConfigAccess → Bool
  | .writable => true
  | .readOnlyAllowlist _ => false

structure AddonConfig where
  favorite : Bool
  updateMode : UpdateMode
  allowPrereleases : Bool
  enabled : Bool
  disableVersion : String
  lastGameBuild : Nat
  lastName : String
  persist : Bool
  deriving DecidableEq

def AddonConfig.registeredDefault : AddonConfig where
  favorite := false
  updateMode := .automatic
  allowPrereleases := false
  enabled := true
  disableVersion := ""
  lastGameBuild := 0
  lastName := ""
  persist := true

structure KnownEntry where
  signature : Nat
  config : AddonConfig
  unknown : List (String × JsonValue)

inductive ConfigEntry where
  | known (entry : KnownEntry)
  | opaqueValue (value : JsonValue)

structure AddonConfigDocument where
  entries : List ConfigEntry

inductive ConfigError where
  | tooLarge
  | malformedJson
  | rootNotArray
  | tooManyEntries
  | zeroSignature
  | read
  | write
  | serialize
  | internalInvariant
  deriving DecidableEq

namespace AddonConfigDocument

def new : AddonConfigDocument := ⟨[]⟩

def get (document : AddonConfigDocument) (signature : Nat) : Option AddonConfig :=
  document.entries.findSome? fun
    | .known entry => if entry.signature = signature then some entry.config else none
    | .opaqueValue _ => none

def updateFirst (signature : Nat) (f : AddonConfig → AddonConfig) :
    List ConfigEntry → List ConfigEntry
  | [] => [.known ⟨signature, f .registeredDefault, []⟩]
  | .known entry :: rest =>
    if entry.signature = signature then .known { entry with config := f entry.config } :: rest
    else .known entry :: updateFirst signature f rest
  | .opaqueValue value :: rest => .opaqueValue value :: updateFirst signature f rest

/-- `get_or_insert`, with what the caller does to the config it borrows. -/
def getOrInsert (document : AddonConfigDocument) (signature : Nat)
    (f : AddonConfig → AddonConfig) : Except ConfigError AddonConfigDocument :=
  if signature = 0 then .error .zeroSignature
  else .ok ⟨updateFirst signature f document.entries⟩

end AddonConfigDocument

end Nexus
