import Nexus.InputBind
import Nexus.Fallible
import Nexus.Text

namespace Nexus

structure KeyNameResolver where
  scanCode : Text → Option (Fin (2 ^ 16))
  keyName : Fin (2 ^ 16) → Option Text

inductive BindParseError where
  | tooLong
  | unknownKey
  | invalidSyntax
  deriving DecidableEq

def nullBind : Text := "(null)".toList

def parseHex16 (text : Text) : Option (Fin (2 ^ 16)) :=
  let digits := if text.head? = some '+' then text.tail else text
  if digits = [] then none
  else
    match digits.mapM hexDigitValue with
    | none => none
    | some values =>
      let value := values.foldl (fun value digit => value * 16 + digit) 0
      if h : value < 2 ^ 16 then some ⟨value, h⟩ else none

def parseScanCodeLiteral (value : Text) : Option (Fin (2 ^ 16)) :=
  match value with
  | 'S' :: 'C' :: ':' :: digits => (parseHex16 digits).filter fun code => code ≠ 0
  | _ => none

def modifierNamed (upper : Text) : Option Modifier :=
  if upper = "ALT".toList then some .alt
  else if upper = "CTRL".toList ∨ upper = "CONTROL".toList then some .control
  else if upper = "SHIFT".toList then some .shift
  else none

def parseParts : List Text → ModifierState → Except BindParseError (ModifierState × Text)
  | [], _ => .error .unknownKey
  | [part], modifiers =>
    if part.asciiUppercase = [] then .error .invalidSyntax else .ok (modifiers, part.asciiUppercase)
  | part :: rest, modifiers =>
    match modifierNamed part.asciiUppercase with
    | some modifier => parseParts rest (modifiers.set modifier true)
    | none => .error .invalidSyntax

def mouseNamed (key : Text) : Option MouseButton :=
  if key = "LMB".toList then some .left
  else if key = "RMB".toList then some .right
  else if key = "MMB".toList then some .middle
  else if key = "M4".toList then some .x1
  else if key = "M5".toList then some .x2
  else none

def resolveKey (resolver : KeyNameResolver) (key : Text) :
    Except BindParseError (InputDevice × Fin (2 ^ 16)) :=
  match mouseNamed key with
  | some button => .ok (.mouse, button.code)
  | none =>
    match (resolver.scanCode key).or (parseScanCodeLiteral key) with
    | some code => .ok (.keyboard, code)
    | none => .error .unknownKey

def bindParts (input : Text) : List Text := (input.splitOn '+').map Text.trim

def parseBind (input : Text) (resolver : KeyNameResolver) : Except BindParseError InputBind :=
  if 256 < input.byteLength then .error .tooLong
  else if input.eqIgnoreAsciiCase nullBind then .ok .default
  else do
    let (modifiers, key) ← parseParts (bindParts input) .default
    let (device, code) ← resolveKey resolver key
    .ok ⟨modifiers.alt, modifiers.control, modifiers.shift, device, code⟩

def upperHexDigit (n : Nat) : Char := (Nat.digitChar n).toUpper

def scanCodeLiteral (code : Fin (2 ^ 16)) : Text :=
  ['S', 'C', ':', upperHexDigit (code.val / 4096), upperHexDigit (code.val / 256 % 16),
    upperHexDigit (code.val / 16 % 16), upperHexDigit (code.val % 16)]

def mouseName (code : Fin (2 ^ 16)) : Option Text :=
  match MouseButton.fromCode code with
  | some .left => some "LMB".toList
  | some .right => some "RMB".toList
  | some .middle => some "MMB".toList
  | some .x1 => some "M4".toList
  | some .x2 => some "M5".toList
  | _ => none

def keyText (bind : InputBind) (resolver : KeyNameResolver) : Option Text :=
  if bind.device = .mouse then mouseName bind.code
  else if bind.device = .keyboard then
    some ((resolver.keyName bind.code).getD (scanCodeLiteral bind.code))
  else none

def modifierParts (bind : InputBind) : List Text :=
  (if bind.alt then ["ALT".toList] else []) ++ (if bind.control then ["CTRL".toList] else []) ++
    if bind.shift then ["SHIFT".toList] else []

def bindSeparator (padded : Bool) : Text := if padded then " + ".toList else "+".toList

def formatBind (bind : InputBind) (resolver : KeyNameResolver) (padded : Bool) : Text :=
  if bind.isBound then
    match keyText bind resolver with
    | some key => (bindSeparator padded).intercalate (modifierParts bind ++ [key.asciiUppercase])
    | none => nullBind
  else nullBind

def portableScanCodes : List (String × Fin (2 ^ 16)) := [
  ("ESC", 0x01), ("ESCAPE", 0x01), ("1", 0x02), ("2", 0x03), ("3", 0x04), ("4", 0x05),
  ("5", 0x06), ("6", 0x07), ("7", 0x08), ("8", 0x09), ("9", 0x0A), ("0", 0x0B), ("-", 0x0C),
  ("MINUS", 0x0C), ("=", 0x0D), ("EQUALS", 0x0D), ("BACKSPACE", 0x0E), ("TAB", 0x0F),
  ("Q", 0x10), ("W", 0x11), ("E", 0x12), ("R", 0x13), ("T", 0x14), ("Y", 0x15), ("U", 0x16),
  ("I", 0x17), ("O", 0x18), ("P", 0x19), ("ENTER", 0x1C), ("RETURN", 0x1C), ("A", 0x1E),
  ("S", 0x1F), ("D", 0x20), ("F", 0x21), ("G", 0x22), ("H", 0x23), ("J", 0x24), ("K", 0x25),
  ("L", 0x26), ("Z", 0x2C), ("X", 0x2D), ("C", 0x2E), ("V", 0x2F), ("B", 0x30), ("N", 0x31),
  ("M", 0x32), ("SPACE", 0x39), ("F1", 0x3B), ("F2", 0x3C), ("F3", 0x3D), ("F4", 0x3E),
  ("F5", 0x3F), ("F6", 0x40), ("F7", 0x41), ("F8", 0x42), ("F9", 0x43), ("F10", 0x44),
  ("F11", 0x57), ("F12", 0x58), ("HOME", 0xE047), ("UP", 0xE048), ("ARROW UP", 0xE048),
  ("PAGE UP", 0xE049), ("LEFT", 0xE04B), ("ARROW LEFT", 0xE04B), ("RIGHT", 0xE04D),
  ("ARROW RIGHT", 0xE04D), ("END", 0xE04F), ("DOWN", 0xE050), ("ARROW DOWN", 0xE050),
  ("PAGE DOWN", 0xE051), ("INSERT", 0xE052), ("DELETE", 0xE053)]

def portableKeyNames : List (Fin (2 ^ 16) × String) := [
  (0x01, "ESCAPE"), (0x02, "1"), (0x03, "2"), (0x04, "3"), (0x05, "4"), (0x06, "5"), (0x07, "6"),
  (0x08, "7"), (0x09, "8"), (0x0A, "9"), (0x0B, "0"), (0x0C, "MINUS"), (0x0D, "EQUALS"),
  (0x0E, "BACKSPACE"), (0x0F, "TAB"), (0x10, "Q"), (0x11, "W"), (0x12, "E"), (0x13, "R"),
  (0x14, "T"), (0x15, "Y"), (0x16, "U"), (0x17, "I"), (0x18, "O"), (0x19, "P"), (0x1C, "ENTER"),
  (0x1E, "A"), (0x1F, "S"), (0x20, "D"), (0x21, "F"), (0x22, "G"), (0x23, "H"), (0x24, "J"),
  (0x25, "K"), (0x26, "L"), (0x2C, "Z"), (0x2D, "X"), (0x2E, "C"), (0x2F, "V"), (0x30, "B"),
  (0x31, "N"), (0x32, "M"), (0x39, "SPACE"), (0x3B, "F1"), (0x3C, "F2"), (0x3D, "F3"),
  (0x3E, "F4"), (0x3F, "F5"), (0x40, "F6"), (0x41, "F7"), (0x42, "F8"), (0x43, "F9"),
  (0x44, "F10"), (0x57, "F11"), (0x58, "F12"), (0xE047, "HOME"), (0xE048, "UP"),
  (0xE049, "PAGE UP"), (0xE04B, "LEFT"), (0xE04D, "RIGHT"), (0xE04F, "END"), (0xE050, "DOWN"),
  (0xE051, "PAGE DOWN"), (0xE052, "INSERT"), (0xE053, "DELETE")]

def usKeyNames : KeyNameResolver where
  scanCode name := (portableScanCodes.find? fun entry => entry.1.toList = name).map Prod.snd
  keyName code := (portableKeyNames.find? fun entry => entry.1 = code).map fun entry => entry.2.toList

end Nexus
