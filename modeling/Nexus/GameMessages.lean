import Nexus.GameInvoker

namespace Nexus.WindowInput

abbrev WM_USER : BitVec 32 := 0x400
abbrev WM_DESTROY : BitVec 32 := 0x2
abbrev WM_SETFOCUS : BitVec 32 := 0x7
abbrev WM_KILLFOCUS : BitVec 32 := 0x8
abbrev WM_ACTIVATEAPP : BitVec 32 := 0x1C
abbrev WM_SETCURSOR : BitVec 32 := 0x20
abbrev WM_NCDESTROY : BitVec 32 := 0x82
abbrev WM_KEYDOWN : BitVec 32 := 0x100
abbrev WM_KEYUP : BitVec 32 := 0x101
abbrev WM_CHAR : BitVec 32 := 0x102
abbrev WM_SYSKEYDOWN : BitVec 32 := 0x104
abbrev WM_SYSKEYUP : BitVec 32 := 0x105
abbrev WM_MOUSEMOVE : BitVec 32 := 0x200
abbrev WM_LBUTTONDOWN : BitVec 32 := 0x201
abbrev WM_LBUTTONUP : BitVec 32 := 0x202
abbrev WM_LBUTTONDBLCLK : BitVec 32 := 0x203
abbrev WM_RBUTTONDOWN : BitVec 32 := 0x204
abbrev WM_RBUTTONUP : BitVec 32 := 0x205
abbrev WM_RBUTTONDBLCLK : BitVec 32 := 0x206
abbrev WM_MBUTTONDOWN : BitVec 32 := 0x207
abbrev WM_MBUTTONUP : BitVec 32 := 0x208
abbrev WM_MBUTTONDBLCLK : BitVec 32 := 0x209
abbrev WM_MOUSEWHEEL : BitVec 32 := 0x20A
abbrev WM_XBUTTONDOWN : BitVec 32 := 0x20B
abbrev WM_XBUTTONUP : BitVec 32 := 0x20C
abbrev WM_XBUTTONDBLCLK : BitVec 32 := 0x20D
abbrev WM_MOUSEHWHEEL : BitVec 32 := 0x20E
abbrev WM_DEVICECHANGE : BitVec 32 := 0x219
abbrev WM_MOUSELEAVE : BitVec 32 := 0x2A3

abbrev XBUTTON1 : BitVec 32 := 1
abbrev XBUTTON2 : BitVec 32 := 2

structure WindowMessage where
  window : BitVec 64
  message : BitVec 32
  wparam : BitVec 64
  lparam : BitVec 64
  deriving DecidableEq

def PASSTHROUGH_FIRST : BitVec 32 := WM_USER + 7997

def PASSTHROUGH_LAST : BitVec 32 := PASSTHROUGH_FIRST + WM_USER - 1

def wireMessageId (message : BitVec 32) : BitVec 32 :=
  if message < WM_USER then message + PASSTHROUGH_FIRST else message

def keyMessageId (pressed system : Bool) : BitVec 32 :=
  match pressed, system with
  | true, true => WM_SYSKEYDOWN
  | false, true => WM_SYSKEYUP
  | true, false => WM_KEYDOWN
  | false, false => WM_KEYUP

def keyLparam (scanCode : BitVec 16) (pressed system : Bool) : BitVec 64 :=
  let low : BitVec 32 := 1#32 ||| ((scanCode &&& 0xFF).setWidth 32 <<< 16)
  let extended : BitVec 32 :=
    if scanCode >>> 8 = 0xE0 ∨ scanCode >>> 8 = 0xE1 then 1#32 <<< 24 else 0
  let context : BitVec 32 := if system then 1#32 <<< 29 else 0
  let release : BitVec 32 := if pressed then 0 else (1#32 <<< 30) ||| (1#32 <<< 31)
  (low ||| extended ||| context ||| release).setWidth 64

def modifierVirtualKey : Modifier → BitVec 32
  | .alt => 0x12
  | .control => 0x11
  | .shift => 0x10

def mouseMessageId (button : MouseButton) (pressed : Bool) : Option (BitVec 32) :=
  match button, pressed with
  | .left, true => some WM_LBUTTONDOWN
  | .left, false => some WM_LBUTTONUP
  | .right, true => some WM_RBUTTONDOWN
  | .right, false => some WM_RBUTTONUP
  | .middle, true => some WM_MBUTTONDOWN
  | .middle, false => some WM_MBUTTONUP
  | .x1, true => some WM_XBUTTONDOWN
  | .x2, true => some WM_XBUTTONDOWN
  | .x1, false => some WM_XBUTTONUP
  | .x2, false => some WM_XBUTTONUP
  | .none, _ => none

def buttonState : MouseButton → Option (BitVec 32 × BitVec 32)
  | .left => some (0x01, 0)
  | .right => some (0x02, 0)
  | .middle => some (0x10, 0)
  | .x1 => some (0x20, XBUTTON1)
  | .x2 => some (0x40, XBUTTON2)
  | .none => none

def mouseWparam (button : MouseButton) (pressed : Bool) (modifiers : ModifierState) :
    Option (BitVec 64) :=
  (buttonState button).map fun (state, xbutton) =>
    let lowWord : BitVec 32 :=
      (if modifiers.control then 0x08 else 0) ||| (if modifiers.shift then 0x04 else 0) |||
        (if pressed then state else 0)
    ((xbutton <<< 16) ||| lowWord).setWidth 64

def pointLparam (x y : BitVec 32) : BitVec 64 :=
  (((y.setWidth 16).setWidth 32 <<< 16) ||| (x.setWidth 16).setWidth 32 : BitVec 32).setWidth 64

structure NativeMessage where
  message : BitVec 32
  wparam : BitVec 64
  lparam : BitVec 64
  deriving DecidableEq

/-- What the system answers. `isWindow` and `posted` are asked by the number of the question, as the
cursor is. -/
structure Win32 where
  scanCodeOf : BitVec 32 → BitVec 32
  virtualKeyOf : BitVec 32 → BitVec 32
  cursor : Nat → Option (BitVec 32 × BitVec 32)
  isWindow : Nat → BitVec 64 → Bool
  posted : Nat → Bool

structure WindowAttachment where
  generation : Fin (2 ^ 64)
  hwnd : BitVec 64
  deriving DecidableEq

/-- The adapter behind its lock, with the messages that it has posted. `asked` numbers the questions to
the system. -/
structure Win32GameInput where
  active : Option WindowAttachment
  posted : List WindowMessage
  asked : Nat

/-- `none` stands for the one error of the sink. -/
def encodeMessage (win32 : Win32) (asked : Nat) : GameMessage → Option NativeMessage
  | .modifier modifier pressed system =>
    let virtualKey := modifierVirtualKey modifier
    let scanCode := win32.scanCodeOf virtualKey
    if scanCode.toNat < 2 ^ 16 then
      if scanCode = 0 then none
      else some ⟨keyMessageId pressed system, virtualKey.setWidth 64,
        keyLparam (scanCode.setWidth 16) pressed system⟩
    else none
  | .keyboard scanCode pressed system =>
    let virtualKey := win32.virtualKeyOf ((BitVec.ofFin scanCode).setWidth 32)
    if virtualKey = 0 then none
    else some ⟨keyMessageId pressed system, virtualKey.setWidth 64,
      keyLparam (BitVec.ofFin scanCode) pressed system⟩
  | .mouse button pressed modifiers => do
    let (x, y) ← win32.cursor asked
    let message ← mouseMessageId button pressed
    let wparam ← mouseWparam button pressed modifiers
    pure ⟨message, wparam, pointLparam x y⟩

namespace Win32GameInput

variable (win32 : Win32)

def liveWindow (adapter : Win32GameInput) : Option (BitVec 64) × Win32GameInput :=
  match adapter.active with
  | none => (none, adapter)
  | some active =>
    if active.hwnd ≠ 0 ∧ win32.isWindow adapter.asked active.hwnd then
      (some active.hwnd, { adapter with asked := adapter.asked + 1 })
    else (none, { adapter with active := none, asked := adapter.asked + 1 })

def post (hwnd : BitVec 64) (native : NativeMessage) (adapter : Win32GameInput) :
    Bool × Win32GameInput :=
  if win32.posted adapter.asked then
    (true, { adapter with
      posted := adapter.posted ++
        [⟨hwnd, wireMessageId native.message, native.wparam, native.lparam⟩]
      asked := adapter.asked + 1 })
  else if hwnd ≠ 0 ∧ win32.isWindow (adapter.asked + 1) hwnd then
    (false, { adapter with asked := adapter.asked + 2 })
  else (false, { adapter with active := none, asked := adapter.asked + 2 })

def postAll (hwnd : BitVec 64) : List GameMessage → Win32GameInput → Bool × Win32GameInput
  | [], adapter => (true, adapter)
  | message :: messages, adapter =>
    match encodeMessage win32 adapter.asked message with
    | none => (false, { adapter with asked := adapter.asked + 1 })
    | some native =>
      match post win32 hwnd native { adapter with asked := adapter.asked + 1 } with
      | (false, adapter) => (false, adapter)
      | (true, adapter) => postAll hwnd messages adapter

def sendBatch (messages : List GameMessage) (adapter : Win32GameInput) : Bool × Win32GameInput :=
  match liveWindow win32 adapter with
  | (none, adapter) => (false, adapter)
  | (some hwnd, adapter) => postAll win32 hwnd messages adapter

def sendToGameOnly (message : BitVec 32) (wparam lparam : BitVec 64) (adapter : Win32GameInput) :
    Bool × Win32GameInput :=
  match liveWindow win32 adapter with
  | (none, adapter) => (false, adapter)
  | (some hwnd, adapter) => post win32 hwnd ⟨message, wparam, lparam⟩ adapter

end Win32GameInput

end Nexus.WindowInput
