import Nexus.Json
import Nexus.PlainText

namespace Nexus

namespace JsonText

def escapeChar (c : Char) : String :=
  if c = '"' then "\\\""
  else if c = '\\' then "\\\\"
  else if c = Char.ofNat 8 then "\\b"
  else if c = '\t' then "\\t"
  else if c = '\n' then "\\n"
  else if c = Char.ofNat 12 then "\\f"
  else if c = '\r' then "\\r"
  else if c.toNat < 32 then
    "\\u00" ++ String.ofList [Nat.digitChar (c.toNat / 16), Nat.digitChar (c.toNat % 16)]
  else String.singleton c

def escapeChars : List Char → String
  | [] => ""
  | c :: rest => escapeChar c ++ escapeChars rest

def renderString (text : String) : String := "\"" ++ escapeChars text.toList ++ "\""

def escapedBytes : List Char → Nat
  | [] => 0
  | c :: rest => (escapeChar c).utf8ByteSize + escapedBytes rest

def stringBytes (text : String) : Nat := 1 + escapedBytes text.toList + 1

theorem utf8ByteSize_escapeChars (chars : List Char) :
    (escapeChars chars).utf8ByteSize = escapedBytes chars := by
  induction chars with
  | nil => rfl
  | cons _ _ ih => rw [escapeChars, escapedBytes, String.utf8ByteSize_append, ih]

theorem utf8ByteSize_renderString (text : String) :
    (renderString text).utf8ByteSize = stringBytes text := by
  have hquote : "\"".utf8ByteSize = 1 := rfl
  unfold renderString stringBytes
  rw [String.utf8ByteSize_append, String.utf8ByteSize_append, utf8ByteSize_escapeChars, hquote]

variable (floatText : BitVec 64 → String)

def renderNumber : JsonNumber → String
  | .posInt value => value.repr
  | .negInt value => value.repr
  | .float bits => floatText bits

mutual

/-- A printer that puts each element and each member on a line of its own, one tab for each level.
`depth` is the level of the line on which the value starts. -/
def render (depth : Nat) : JsonValue → String
  | .null => "null"
  | .bool true => "true"
  | .bool false => "false"
  | .number value => renderNumber floatText value
  | .string value => renderString value
  | .array [] => "[]"
  | .array values => "[" ++ renderValues (depth + 1) "" values ++ indentation depth ++ "]"
  | .object [] => "\x7b\x7d"
  | .object members =>
    "\x7b" ++ renderMembers (depth + 1) "" members ++ indentation depth ++ "\x7d"

def renderValues (depth : Nat) (separator : String) : List JsonValue → String
  | [] => ""
  | value :: rest =>
    separator ++ indentation depth ++ render depth value ++ renderValues depth "," rest

def renderMembers (depth : Nat) (separator : String) : List (String × JsonValue) → String
  | [] => ""
  | (key, value) :: rest =>
    separator ++ indentation depth ++ renderString key ++ ": " ++ render depth value ++
      renderMembers depth "," rest

end

mutual

def bytes (depth : Nat) : JsonValue → Nat
  | .null => 4
  | .bool true => 4
  | .bool false => 5
  | .number value => (renderNumber floatText value).utf8ByteSize
  | .string value => stringBytes value
  | .array [] => 2
  | .array values => 1 + valuesBytes (depth + 1) 0 values + (depth + 1) + 1
  | .object [] => 2
  | .object members => 1 + membersBytes (depth + 1) 0 members + (depth + 1) + 1

def valuesBytes (depth : Nat) (separator : Nat) : List JsonValue → Nat
  | [] => 0
  | value :: rest => separator + (depth + 1) + bytes depth value + valuesBytes depth 1 rest

def membersBytes (depth : Nat) (separator : Nat) : List (String × JsonValue) → Nat
  | [] => 0
  | (key, value) :: rest =>
    separator + (depth + 1) + stringBytes key + 2 + bytes depth value + membersBytes depth 1 rest

end

mutual

theorem utf8ByteSize_render (depth : Nat) (value : JsonValue) :
    (render floatText depth value).utf8ByteSize = bytes floatText depth value := by
  match value with
  | .null => rfl
  | .bool true => rfl
  | .bool false => rfl
  | .number value => rfl
  | .string value => exact utf8ByteSize_renderString value
  | .array [] => rfl
  | .array (value :: rest) =>
    have hvalues := utf8ByteSize_renderValues (depth + 1) "" (value :: rest)
    have hopen : "[".utf8ByteSize = 1 := rfl
    have hclose : "]".utf8ByteSize = 1 := rfl
    have hfirst : "".utf8ByteSize = 0 := rfl
    rw [render, bytes, String.utf8ByteSize_append, String.utf8ByteSize_append,
      String.utf8ByteSize_append, hvalues, utf8ByteSize_indentation, hopen, hclose, hfirst]
    · simp
    · simp
  | .object [] => rfl
  | .object (member :: rest) =>
    have hmembers := utf8ByteSize_renderMembers (depth + 1) "" (member :: rest)
    have hopen : "\x7b".utf8ByteSize = 1 := rfl
    have hend : "\x7d".utf8ByteSize = 1 := rfl
    have hfirst : "".utf8ByteSize = 0 := rfl
    rw [render, bytes, String.utf8ByteSize_append, String.utf8ByteSize_append,
      String.utf8ByteSize_append, hmembers, utf8ByteSize_indentation, hopen, hend, hfirst]
    · simp
    · simp

theorem utf8ByteSize_renderValues (depth : Nat) (separator : String) (values : List JsonValue) :
    (renderValues floatText depth separator values).utf8ByteSize =
      valuesBytes floatText depth separator.utf8ByteSize values := by
  match values with
  | [] => rfl
  | value :: rest =>
    have hvalue := utf8ByteSize_render depth value
    have hrest := utf8ByteSize_renderValues depth "," rest
    have hcomma : ",".utf8ByteSize = 1 := rfl
    rw [renderValues, valuesBytes, String.utf8ByteSize_append, String.utf8ByteSize_append,
      String.utf8ByteSize_append, hvalue, hrest, utf8ByteSize_indentation, hcomma]

theorem utf8ByteSize_renderMembers (depth : Nat) (separator : String)
    (members : List (String × JsonValue)) :
    (renderMembers floatText depth separator members).utf8ByteSize =
      membersBytes floatText depth separator.utf8ByteSize members := by
  match members with
  | [] => rfl
  | (key, value) :: rest =>
    have hvalue := utf8ByteSize_render depth value
    have hrest := utf8ByteSize_renderMembers depth "," rest
    have hcomma : ",".utf8ByteSize = 1 := rfl
    have hcolon : ": ".utf8ByteSize = 2 := rfl
    rw [renderMembers, membersBytes, String.utf8ByteSize_append, String.utf8ByteSize_append,
      String.utf8ByteSize_append, String.utf8ByteSize_append, String.utf8ByteSize_append,
      utf8ByteSize_renderString, hvalue, hrest, utf8ByteSize_indentation, hcomma, hcolon]

end

theorem membersBytes_cons (depth separator : Nat) (key : String) (value : JsonValue)
    (rest : JsonMembers) :
    membersBytes floatText depth separator ((key, value) :: rest) =
      separator + (depth + 1) + stringBytes key + 2 + bytes floatText depth value +
        membersBytes floatText depth 1 rest := by
  rw [membersBytes]

theorem membersBytes_insert_le (depth : Nat) (members : JsonMembers) (key : String)
    (value : JsonValue) :
    membersBytes floatText depth 1 (members.insert key value) ≤
      membersBytes floatText depth 1 members +
        (1 + (depth + 1) + stringBytes key + 2 + bytes floatText depth value) := by
  unfold JsonMembers.insert
  induction members with
  | nil =>
    rw [SortedMap.place, membersBytes_cons]
    omega
  | cons item =>
    obtain ⟨_, _⟩ := item
    rw [SortedMap.place]
    split
    · rw [membersBytes_cons]
      omega
    · split
      next =>
        rw [membersBytes_cons, membersBytes_cons]
        omega
      next =>
        rw [membersBytes_cons, membersBytes_cons]
        omega

theorem bytes_object_le (depth : Nat) (members : JsonMembers) :
    bytes floatText depth (.object members) ≤
      1 + membersBytes floatText (depth + 1) 1 members + (depth + 1) + 1 := by
  cases members with
  | nil =>
    rw [bytes]
    omega
  | cons item =>
    obtain ⟨_, _⟩ := item
    rw [bytes, membersBytes_cons, membersBytes_cons]
    · omega
    · simp

theorem valuesBytes_le {bound : Nat} (depth : Nat) {values : List JsonValue}
    (h : ∀ value ∈ values, bytes floatText depth value ≤ bound) (separator : Nat)
    (hseparator : separator ≤ 1) :
    valuesBytes floatText depth separator values ≤ values.length * (1 + (depth + 1) + bound) := by
  induction values generalizing separator with
  | nil => rw [valuesBytes]; omega
  | cons value _ ih =>
    have hvalue := h value List.mem_cons_self
    have hrest := ih (fun other hother => h other (List.mem_cons_of_mem _ hother)) 1 le_rfl
    rw [valuesBytes, List.length_cons, Nat.add_mul, Nat.one_mul]
    omega

theorem bytes_array_le {bound : Nat} (depth : Nat) {values : List JsonValue}
    (h : ∀ value ∈ values, bytes floatText (depth + 1) value ≤ bound) :
    bytes floatText depth (.array values) ≤
      values.length * (1 + (depth + 1 + 1) + bound) + depth + 3 := by
  have hvalues := valuesBytes_le floatText (depth + 1) h 0 (Nat.zero_le 1)
  cases values with
  | nil => rw [bytes]; omega
  | cons =>
    rw [bytes]
    · omega
    · simp

end JsonText

end Nexus
