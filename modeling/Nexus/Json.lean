import Nexus.SortedMap
import Mathlib.Data.String.Basic

namespace Nexus

/-- A number of a JSON document; a float is kept by its bits. -/
inductive JsonNumber where
  | posInt (value : Nat)
  | negInt (value : Int)
  | float (bits : BitVec 64)
  deriving DecidableEq

inductive JsonValue where
  | null
  | bool (value : Bool)
  | number (value : JsonNumber)
  | string (value : String)
  | array (values : List JsonValue)
  | object (members : List (String × JsonValue))

abbrev JsonMembers := List (String × JsonValue)

/-- What a JSON library does with text. A float that is printed and parsed again may come back
as another float. -/
structure JsonLibrary where
  parse : String → Option JsonValue
  floatText : BitVec 64 → String
  rereadFloat : BitVec 64 → BitVec 64

namespace JsonValue

def asObject : JsonValue → Option JsonMembers
  | .object members => some members
  | _ => none

def asArray : JsonValue → Option (List JsonValue)
  | .array values => some values
  | _ => none

def asBool : JsonValue → Option Bool
  | .bool value => some value
  | _ => none

def asStr : JsonValue → Option String
  | .string value => some value
  | _ => none

def asU64 : JsonValue → Option Nat
  | .number (.posInt value) => some value
  | _ => none

def isNull : JsonValue → Bool
  | .null => true
  | _ => false

end JsonValue

namespace JsonMembers

def get (members : JsonMembers) (key : String) : Option JsonValue := SortedMap.find key members

def insert (members : JsonMembers) (key : String) (value : JsonValue) : JsonMembers :=
  SortedMap.place key value members

def remove (members : JsonMembers) (key : String) : JsonMembers :=
  members.filter fun item => item.1 ≠ key

theorem get_insert (members : JsonMembers) (key other : String) (value : JsonValue) :
    (members.insert key value).get other = if other = key then some value else members.get other :=
  SortedMap.find_place key other value members

theorem get_remove (members : JsonMembers) (key other : String) :
    (members.remove key).get other = if other = key then none else members.get other :=
  SortedMap.find_erase key other members

theorem get_foldl_remove (keys : List String) (members : JsonMembers) (key : String) :
    (keys.foldl remove members).get key = if key ∈ keys then none else members.get key := by
  induction keys generalizing members with
  | nil => rfl
  | cons name rest ih =>
    rw [List.foldl_cons, ih, get_remove]
    by_cases hrest : key ∈ rest
    · simp [hrest]
    · by_cases hname : key = name
      · simp [hname]
      · simp [hrest, hname]

theorem foldl_remove (keys : List String) (members : JsonMembers) :
    keys.foldl remove members = members.filter fun item => item.1 ∉ keys := by
  induction keys generalizing members with
  | nil => simp
  | cons _ _ ih =>
    rw [List.foldl_cons, ih]
    unfold remove
    rw [List.filter_filter]
    refine List.filter_congr fun item _ => ?_
    simp [Bool.and_comm]

theorem foldl_remove_insert {keys : List String} {key : String} (hkey : key ∈ keys)
    (members : JsonMembers) (value : JsonValue) :
    keys.foldl remove (members.insert key value) = keys.foldl remove members := by
  rw [foldl_remove, foldl_remove]
  exact SortedMap.filter_place (p := fun key => decide (key ∉ keys)) (by simpa using hkey) value
    members

theorem not_mem_of_get {members : JsonMembers} {key : String} (h : members.get key = none) :
    key ∉ members.map Prod.fst := by
  induction members with
  | nil => exact List.not_mem_nil
  | cons item _ ih =>
    obtain ⟨_, _⟩ := item
    unfold get at h ih
    simp only [SortedMap.find] at h
    split at h
    · cases h
    next hne =>
      rw [List.map_cons, List.mem_cons, not_or]
      exact ⟨fun heq => hne heq.symm, ih h⟩

theorem foldl_remove_of_absent {keys : List String} {members : JsonMembers}
    (h : ∀ key ∈ keys, members.get key = none) : keys.foldl remove members = members := by
  rw [foldl_remove]
  refine List.filter_eq_self.mpr fun item hitem => ?_
  rw [decide_eq_true_iff]
  intro hkey
  exact not_mem_of_get (h item.1 hkey) (List.mem_map_of_mem hitem)

end JsonMembers

namespace JsonLibrary

variable (json : JsonLibrary)

def rereadNumber : JsonNumber → JsonNumber
  | .posInt value => .posInt value
  | .negInt value => .negInt value
  | .float bits => .float (json.rereadFloat bits)

mutual

def reread : JsonValue → JsonValue
  | .null => .null
  | .bool value => .bool value
  | .number value => .number (json.rereadNumber value)
  | .string value => .string value
  | .array values => .array (rereadValues values)
  | .object members => .object (rereadMembers members)

def rereadValues : List JsonValue → List JsonValue
  | [] => []
  | value :: rest => reread value :: rereadValues rest

def rereadMembers : List (String × JsonValue) → List (String × JsonValue)
  | [] => []
  | (key, value) :: rest => (key, reread value) :: rereadMembers rest

end

theorem rereadValues_eq (values : List JsonValue) :
    json.rereadValues values = values.map json.reread := by
  induction values with
  | nil => rfl
  | cons _ _ ih => rw [rereadValues, ih, List.map_cons]

theorem rereadMembers_eq (members : JsonMembers) :
    json.rereadMembers members = members.map fun item => (item.1, json.reread item.2) := by
  induction members with
  | nil => rfl
  | cons item _ ih =>
    obtain ⟨_, _⟩ := item
    rw [rereadMembers, ih, List.map_cons]

theorem get_rereadMembers (members : JsonMembers) (key : String) :
    JsonMembers.get (json.rereadMembers members) key = (members.get key).map json.reread := by
  induction members with
  | nil => rfl
  | cons item _ ih =>
    obtain ⟨_, _⟩ := item
    simp only [rereadMembers, JsonMembers.get, SortedMap.find]
    split
    · rfl
    · exact ih

theorem insert_rereadMembers (members : JsonMembers) (key : String) (value : JsonValue) :
    json.rereadMembers (members.insert key value) =
      JsonMembers.insert (json.rereadMembers members) key (json.reread value) := by
  induction members with
  | nil => rfl
  | cons item _ ih =>
    obtain ⟨_, _⟩ := item
    simp only [rereadMembers, JsonMembers.insert, SortedMap.place]
    split
    · rfl
    · split
      · rfl
      · rw [rereadMembers]
        exact congrArg _ ih

theorem remove_rereadMembers (members : JsonMembers) (key : String) :
    json.rereadMembers (members.remove key) =
      JsonMembers.remove (json.rereadMembers members) key := by
  rw [rereadMembers_eq, rereadMembers_eq]
  unfold JsonMembers.remove
  rw [List.filter_map]
  rfl

@[simp] theorem asBool_reread (value : JsonValue) :
    (json.reread value).asBool = value.asBool := by
  cases value <;> rfl

@[simp] theorem asStr_reread (value : JsonValue) : (json.reread value).asStr = value.asStr := by
  cases value <;> rfl

@[simp] theorem asU64_reread (value : JsonValue) : (json.reread value).asU64 = value.asU64 := by
  cases value with
  | number value => cases value <;> rfl
  | _ => rfl

@[simp] theorem isNull_reread (value : JsonValue) :
    (json.reread value).isNull = value.isNull := by
  cases value <;> rfl

theorem asObject_reread (value : JsonValue) :
    (json.reread value).asObject = value.asObject.map json.rereadMembers := by
  cases value <;> rfl

mutual

theorem reread_of_exact (hexact : ∀ bits, json.rereadFloat bits = bits) (value : JsonValue) :
    json.reread value = value := by
  match value with
  | .null => rfl
  | .bool _ => rfl
  | .number (.posInt _) => rfl
  | .number (.negInt _) => rfl
  | .number (.float bits) => rw [reread, rereadNumber, hexact]
  | .string _ => rfl
  | .array values => rw [reread, rereadValues_of_exact hexact values]
  | .object members => rw [reread, rereadMembers_of_exact hexact members]

theorem rereadValues_of_exact (hexact : ∀ bits, json.rereadFloat bits = bits)
    (values : List JsonValue) : json.rereadValues values = values := by
  match values with
  | [] => rfl
  | value :: rest => rw [rereadValues, reread_of_exact hexact value, rereadValues_of_exact hexact rest]

theorem rereadMembers_of_exact (hexact : ∀ bits, json.rereadFloat bits = bits)
    (members : List (String × JsonValue)) : json.rereadMembers members = members := by
  match members with
  | [] => rfl
  | (key, value) :: rest =>
    rw [rereadMembers, reread_of_exact hexact value, rereadMembers_of_exact hexact rest]

end

end JsonLibrary

end Nexus
