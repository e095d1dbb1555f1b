import Nexus.GameBindRegistry
import Nexus.ManagedMapping
import Nexus.XmlText

namespace Nexus

def maxXmlBytes : Nat := 8 * 1024 * 1024

def maxXmlActions : Nat := 16384

abbrev XmlAttributes := SortedMap String String

def parseAttributes (attributes : List (Option (String × String))) :
    Except PersistenceError XmlAttributes :=
  attributes.foldlM (fun parsed item =>
    match item with
    | none => .error .invalidXml
    | some (key, value) => .ok (parsed.put key value)) SortedMap.empty

def maskedBind (modifierBits : Fin (2 ^ 8)) (device : InputDevice) (code : Fin (2 ^ 16)) :
    InputBind :=
  ⟨modifierBits.val &&& 4 ≠ 0, modifierBits.val &&& 2 ≠ 0, modifierBits.val &&& 1 ≠ 0, device,
    code⟩

def gameToMouseButton (button : String) : Option MouseButton :=
  if button = "0" then some .left
  else if button = "2" then some .right
  else if button = "1" then some .middle
  else if button = "3" then some .x1
  else if button = "4" then some .x2
  else none

/-- The binding of one slot, `none` when the attributes do not say it. -/
def parseXmlSlot (attributes : XmlAttributes)
    (deviceSuffix buttonSuffix modifierSuffix : String) : Option InputBind := do
  let deviceKey := "device" ++ deviceSuffix
  let buttonKey := "button" ++ buttonSuffix
  let modifierKey := "mod" ++ modifierSuffix
  let device ← attributes.get? deviceKey
  let modifierBits := ((attributes.get? modifierKey).bind (parseUnsigned (2 ^ 8))).getD 0
  if device = "Keyboard" then
    let button ← attributes.get? buttonKey
    let gameCode ← parseUnsigned (2 ^ 16) button
    some (maskedBind modifierBits .keyboard (gameScanCodeToScanCode gameCode)).normalized
  else if device = "Mouse" then
    let button ← attributes.get? buttonKey
    match gameToMouseButton button with
    | some button => some (maskedBind modifierBits .mouse button.code).normalized
    | none => some .default
  else some .default

def mouseButtonToGame (code : Fin (2 ^ 16)) : Option String :=
  match MouseButton.fromCode code with
  | some .left => some "0"
  | some .right => some "2"
  | some .middle => some "1"
  | some .x1 => some "3"
  | some .x2 => some "4"
  | _ => none

def modifierMask (binding : InputBind) : Nat :=
  binding.shift.toNat + binding.control.toNat <<< 1 + binding.alt.toNat <<< 2

def appendXmlSlot (attributes : List (String × String)) (binding : InputBind)
    (deviceSuffix buttonSuffix modifierSuffix : String) : List (String × String) :=
  let deviceKey := "device" ++ deviceSuffix
  let buttonKey := "button" ++ buttonSuffix
  let modifierKey := "mod" ++ modifierSuffix
  let attributes :=
    if binding.device = .keyboard ∧ binding.code ≠ 0 then
      attributes ++ [(deviceKey, "Keyboard"),
        (buttonKey, (scanCodeToGameScanCode binding.code).val.repr)]
    else if binding.device = .mouse ∧ binding.code ≠ 0 then
      attributes ++ [(deviceKey, "Mouse")] ++
        match mouseButtonToGame binding.code with
        | some button => [(buttonKey, button)]
        | none => []
    else attributes ++ [(deviceKey, "None")]
  if modifierMask binding ≠ 0 then
    attributes ++ [(modifierKey, (modifierMask binding).repr)]
  else attributes

def actionKeys : List String := ["id", "device", "button", "mod", "device2", "button2", "mod2"]

namespace GameBindRegistry

def applyXmlAction (registry : GameBindRegistry) (attributes : XmlAttributes) :
    Bool × GameBindRegistry :=
  match (attributes.get? "id").bind (parseUnsigned (2 ^ 32)) with
  | none => (false, registry)
  | some id =>
    if id = GameBindId.legacyMoveSwimUp then (false, registry)
    else
      let primary := parseXmlSlot attributes "" "" ""
      let secondary := parseXmlSlot attributes "2" "2" "2"
      let binding := (registry.bindings.get? id).getD .default
      let binding := { binding with primary := primary.getD binding.primary }
      let binding := { binding with secondary := secondary.getD binding.secondary }
      let loadedNames :=
        match attributes.get? "name" with
        | some name => registry.loadedNames.put id name
        | none => registry.loadedNames
      let extra := actionKeys.foldl SortedMap.erase (attributes.erase "name")
      let actionExtra :=
        if extra.toList.isEmpty then registry.actionExtra else registry.actionExtra.put id extra
      (true, { registry with
        bindings := registry.bindings.put id binding
        loadedNames := loadedNames
        actionExtra := actionExtra })

def xmlActionAttributes (registry : GameBindRegistry) (id : GameBindId)
    (binding : MultiInputBind) : List (String × String) :=
  let name := (id.name <|> registry.loadedNames.get? id).getD ""
  let attributes := [("name", name), ("id", id.val.repr)]
  let attributes := appendXmlSlot attributes binding.primary "" "" ""
  let attributes := appendXmlSlot attributes binding.secondary "2" "2" "2"
  match registry.actionExtra.get? id with
  | none => attributes
  | some extra =>
    attributes ++ extra.toList.filter fun item => item.1 ∉ attributes.map Prod.fst

end GameBindRegistry

structure XmlLoad where
  candidate : GameBindRegistry
  depth : Nat
  sawRoot : Bool
  report : LoadReport
  actionCount : Nat

namespace XmlLoad

def start : XmlLoad := ⟨.withDefaults, 0, false, ⟨0, 0⟩, 0⟩

def root (state : XmlLoad) (attributes : List (Option (String × String))) :
    Except PersistenceError XmlLoad := do
  let rootExtra ← parseAttributes attributes
  return { state with
    sawRoot := true, candidate := { state.candidate with rootExtra := rootExtra } }

def action (state : XmlLoad) (attributes : List (Option (String × String))) :
    Except PersistenceError XmlLoad :=
  if maxXmlActions < state.actionCount + 1 then .error .limitExceeded
  else do
    let attributes ← parseAttributes attributes
    let applied := state.candidate.applyXmlAction attributes
    return { state with
      actionCount := state.actionCount + 1
      candidate := applied.2
      report :=
        if applied.1 then { state.report with loaded := state.report.loaded + 1 }
        else { state.report with skipped := state.report.skipped + 1 } }

def opened (state : XmlLoad) (name : String) (attributes : List (Option (String × String))) :
    Except PersistenceError XmlLoad :=
  if state.depth = 0 then
    if name ≠ "InputBindings" then .error .invalidXml else state.root attributes
  else if state.depth = 1 ∧ name = "action" then state.action attributes
  else .ok state

def event (state : XmlLoad) : XmlEvent → Except PersistenceError XmlLoad
  | .decl => .ok state
  | .comment => .ok state
  | .text => .ok state
  | .start name attributes => do
    let state ← state.opened name attributes
    return { state with depth := state.depth + 1 }
  | .empty name attributes =>
    -- an empty element of another name is no error at the root, unlike an open one
    if state.depth = 0 ∧ name = "InputBindings" then state.root attributes
    else if state.depth = 1 ∧ name = "action" then state.action attributes
    else .ok state
  | .close =>
    if state.depth = 0 then .error .invalidXml else .ok { state with depth := state.depth - 1 }
  | .other => .ok state

end XmlLoad

namespace GameBindRegistry

variable (library : XmlLibrary)

def parseXml (source : String) : Except PersistenceError (LoadReport × GameBindRegistry) :=
  if maxXmlBytes < source.utf8ByteSize then .error .limitExceeded
  else do
    let final ← (library.read source).events.foldlM XmlLoad.event XmlLoad.start
    if (library.read source).complete = false then .error .invalidXml
    else if final.sawRoot = false ∨ final.depth ≠ 0 then .error .invalidXml
    else return (final.report, final.candidate)

def loadXml (registry : GameBindRegistry) (source : String) :
    Except PersistenceError LoadReport × GameBindRegistry :=
  match parseXml library source with
  | .ok (report, candidate) => (.ok report, candidate)
  | .error error => (.error error, registry)

def documentTags (registry : GameBindRegistry) : List XmlTag :=
  [.decl "1.0" "UTF-8", .start "InputBindings" registry.rootExtra.toList] ++
    (registry.bindings.toList.filter fun item => item.1 ≠ GameBindId.legacyMoveSwimUp).map
      (fun item => .empty "action" (registry.xmlActionAttributes item.1 item.2)) ++
    [.close "InputBindings"]

/-- Writing to memory does not fail, and the written bytes are those of strings. -/
def saveXml (registry : GameBindRegistry) : String :=
  XmlText.render library.escape registry.documentTags ++ "\n"

end GameBindRegistry

inductive GameXmlOp where
  | set (action : GameBindId) (slot : GameSlot) (binding : InputBind)
  | loadXml (source : String)

namespace GameXmlOp

variable (library : XmlLibrary)

def apply (registry : GameBindRegistry) : GameXmlOp → GameBindRegistry
  | .set action slot binding => (registry.set action slot binding).2
  | .loadXml source => (registry.loadXml library source).2

def run (ops : List GameXmlOp) : GameBindRegistry :=
  ops.foldl (apply library) .withDefaults

end GameXmlOp

end Nexus
