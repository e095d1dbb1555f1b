import Nexus.GameMessages
import Nexus.ManagedInputBinds

namespace Nexus.WindowInput

/-- One window that closes on Escape. `admitted` tells whether the entry and its owner still let the
service in. -/
structure EscapeEntry where
  window : String
  admitted : Bool
  visible : Bool
  deriving DecidableEq

structure EscapeClosingRegistry where
  entries : List EscapeEntry
  enabled : Bool
  deriving DecidableEq

structure EscapeKeyEvent where
  isKeyDown : Bool
  virtualKey : BitVec 32
  wasDown : Bool

def ESCAPE_VIRTUAL_KEY : BitVec 32 := 0x1B

namespace EscapeClosingRegistry

def registeredWindows (registry : EscapeClosingRegistry) : List String :=
  registry.entries.map EscapeEntry.window

def close (window : String) (registry : EscapeClosingRegistry) : EscapeClosingRegistry :=
  { registry with
    entries := registry.entries.map fun entry =>
      if entry.window = window then { entry with visible := false } else entry }

/-- Closes the first window of the list that is registered, admitted and visible. -/
def closeFirst : List String → EscapeClosingRegistry → Option String × EscapeClosingRegistry
  | [], registry => (none, registry)
  | window :: windows, registry =>
    match registry.entries.find? fun entry => entry.window = window with
    | some entry =>
      if entry.admitted ∧ entry.visible then (some window, registry.close window)
      else closeFirst windows registry
    | none => closeFirst windows registry

def handle (event : EscapeKeyEvent) (windowStack : List String)
    (registry : EscapeClosingRegistry) : Option String × EscapeClosingRegistry :=
  if !registry.enabled || !event.isKeyDown || event.virtualKey ≠ ESCAPE_VIRTUAL_KEY ||
      event.wasDown then (none, registry)
  else closeFirst (windowStack.drop 1).reverse registry

end EscapeClosingRegistry

structure CursorPoint where
  x : BitVec 32
  y : BitVec 32
  deriving DecidableEq

structure CursorSnapshot where
  visible : Bool
  position : CursorPoint

structure CursorPlatform where
  snapshot : Option CursorSnapshot
  confineTo : CursorPoint → Bool
  releaseConfinement : Bool
  moveTo : CursorPoint → Bool

structure MouseResetService where
  lockCursor : Bool
  resetCursor : Bool
  dragActive : Bool
  clipActive : Bool
  resetPending : Bool
  lastVisible : Option CursorPoint

namespace MouseResetService

def finishDrag (platform : CursorPlatform) (service : MouseResetService) : MouseResetService :=
  let clipActive := service.clipActive && !platform.releaseConfinement
  let resetPending := service.resetPending &&
    service.lastVisible.any fun point => !platform.moveTo point
  { service with clipActive, resetPending, dragActive := clipActive || resetPending }

def isCameraMouseMessage (message : BitVec 32) : Bool :=
  message ∈ [WM_LBUTTONDOWN, WM_RBUTTONDOWN, WM_LBUTTONUP, WM_RBUTTONUP, WM_MOUSEMOVE]

def shouldRecordPosition (message : WindowMessage) (cursorVisible : Bool) : Bool :=
  cursorVisible &&
    if message.message = WM_LBUTTONDOWN then message.wparam &&& 2 = 0
    else message.message = WM_RBUTTONDOWN && message.wparam &&& 1 = 0

def startDrag (platform : CursorPlatform) (service : MouseResetService) : MouseResetService :=
  let starts := !service.dragActive && service.lastVisible.isSome &&
    (service.lockCursor || service.resetCursor)
  let dragActive := service.dragActive || starts
  let clipActive := if dragActive && service.lockCursor && !service.clipActive then
      service.lastVisible.any platform.confineTo
    else service.clipActive
  let resetPending := if starts then service.resetCursor else service.resetPending
  { service with
    dragActive, clipActive, resetPending := resetPending || (dragActive && service.resetCursor) }

def handle (platform : CursorPlatform) (message : WindowMessage) (service : MouseResetService) :
    MouseResetService :=
  if message.message = WM_ACTIVATEAPP then service.finishDrag platform
  else if isCameraMouseMessage message.message then
    match platform.snapshot with
    | none => service
    | some snapshot =>
      let service := if shouldRecordPosition message snapshot.visible then
          { service with lastVisible := some snapshot.position }
        else service
      if service.dragActive && snapshot.visible then service.finishDrag platform
      else if !snapshot.visible && message.wparam &&& 3 ≠ 0 then service.startDrag platform
      else service
  else service

end MouseResetService

def modifierOf (virtualKey : BitVec 64) : Option Modifier :=
  if virtualKey = 0x12 then some .alt
  else if virtualKey = 0x11 then some .control
  else if virtualKey = 0x10 then some .shift
  else none

def bitIsSet (value : BitVec 64) (bit : Nat) : Bool :=
  value &&& (1#64 <<< bit) ≠ 0

def EXTENDED_SCAN_CODE_PREFIX : BitVec 16 := 0xE000

def scanCodeOf (lparam : BitVec 64) : BitVec 16 :=
  let scanCode := ((lparam >>> 16) &&& 0xFF).setWidth 16
  if bitIsSet lparam 24 then EXTENDED_SCAN_CODE_PREFIX ||| scanCode else scanCode

def xButtonOf (wparam : BitVec 64) : Option MouseButton :=
  let number := ((wparam >>> 16) &&& 0xFFFF).setWidth 16
  if number = XBUTTON1.setWidth 16 then some .x1
  else if number = XBUTTON2.setWidth 16 then some .x2
  else none

def inputMessage (message : WindowMessage) : Option InputMessage :=
  if message.message = WM_ACTIVATEAPP then some .activateApp
  else if (message.message = WM_KEYDOWN ∨ message.message = WM_SYSKEYDOWN) ∧
      message.wparam ≤ 0xFF then
    some (.keyDown (modifierOf message.wparam) (scanCodeOf message.lparam).toFin
      (bitIsSet message.lparam 30))
  else if (message.message = WM_KEYUP ∨ message.message = WM_SYSKEYUP) ∧
      message.wparam ≤ 0xFF then
    some (.keyUp (modifierOf message.wparam) (scanCodeOf message.lparam).toFin)
  else if message.message = WM_MBUTTONDOWN then some (.mouseDown .middle)
  else if message.message = WM_MBUTTONUP then some (.mouseUp .middle)
  else if message.message = WM_XBUTTONDOWN then (xButtonOf message.wparam).map .mouseDown
  else if message.message = WM_XBUTTONUP then (xButtonOf message.wparam).map .mouseUp
  else none

structure RuntimeInputServices where
  managed : ManagedWorld
  escapeClosing : EscapeClosingRegistry
  mouseReset : MouseResetService

namespace RuntimeInputServices

def closeOnEscape (message : WindowMessage) (services : RuntimeInputServices) :
    Bool × RuntimeInputServices :=
  if message.wparam.toNat < 2 ^ 32 then
    let event : EscapeKeyEvent := ⟨message.message = WM_KEYDOWN, message.wparam.setWidth 32,
      bitIsSet message.lparam 30⟩
    if !event.isKeyDown || event.virtualKey ≠ ESCAPE_VIRTUAL_KEY || event.wasDown then
      (false, services)
    else
      let windowStack := "" :: services.escapeClosing.registeredWindows
      let (closed, escapeClosing) := services.escapeClosing.handle event windowStack
      (closed.isSome, { services with escapeClosing })
  else (false, services)

def afterUi (platform : ManagedPlatform) (message : WindowMessage)
    (services : RuntimeInputServices) : Bool × RuntimeInputServices :=
  match services.closeOnEscape message with
  | (true, services) => (true, services)
  | (false, services) =>
    match inputMessage message with
    | none => (false, services)
    | some input =>
      let (outcome, managed) := services.managed.route platform input
      (outcome.consumed, { services with managed })

def redirectMessageId (message : BitVec 32) : BitVec 32 :=
  if PASSTHROUGH_FIRST ≤ message ∧ message ≤ PASSTHROUGH_LAST then message - PASSTHROUGH_FIRST
  else message

def redirectGameOnly (cursor : CursorPlatform) (message : WindowMessage)
    (services : RuntimeInputServices) : WindowMessage × RuntimeInputServices :=
  let message := { message with message := redirectMessageId message.message }
  (message, { services with mouseReset := services.mouseReset.handle cursor message })

end RuntimeInputServices

inductive MessageClass where
  | mouse
  | keyboard
  | focus
  | other
  deriving DecidableEq

def messageClass (message : BitVec 32) : MessageClass :=
  if message ∈ [WM_LBUTTONDOWN, WM_LBUTTONDBLCLK, WM_LBUTTONUP, WM_RBUTTONDOWN, WM_RBUTTONDBLCLK,
      WM_RBUTTONUP, WM_MBUTTONDOWN, WM_MBUTTONDBLCLK, WM_MBUTTONUP, WM_XBUTTONDOWN,
      WM_XBUTTONDBLCLK, WM_XBUTTONUP, WM_MOUSEWHEEL, WM_MOUSEHWHEEL, WM_MOUSEMOVE,
      WM_MOUSELEAVE] then .mouse
  else if message ∈ [WM_KEYDOWN, WM_KEYUP, WM_SYSKEYDOWN, WM_SYSKEYUP, WM_CHAR] then .keyboard
  else if message ∈ [WM_KILLFOCUS, WM_SETFOCUS] then .focus
  else .other

def isPointerFreeMessage (message : BitVec 32) : Bool :=
  messageClass message ≠ .other ∨ message ∈ [WM_DEVICECHANGE, WM_SETCURSOR]

structure TargetFlags where
  active : Bool
  visible : Bool
  captureMouse : Bool
  captureKeyboard : Bool
  boundHwnd : BitVec 64
  deriving DecidableEq

def TargetFlags.isBoundWindow (flags : TargetFlags) (hwnd : BitVec 64) : Bool :=
  hwnd ≠ 0 ∧ flags.boundHwnd = hwnd

def TargetFlags.shouldConsume (flags : TargetFlags) (message : BitVec 32) : Bool :=
  flags.active && flags.visible &&
    match messageClass message with
    | .mouse => flags.captureMouse
    | .keyboard => flags.captureKeyboard
    | .focus => flags.captureMouse || flags.captureKeyboard
    | .other => false

def MESSAGE_CAPACITY : Nat := 256

structure InputQueue where
  messages : List (BitVec 32 × BitVec 64 × BitVec 64)
  inputLost : Bool
  deriving DecidableEq

namespace InputQueue

def pushBounded (message : BitVec 32 × BitVec 64 × BitVec 64) (queue : InputQueue) : InputQueue :=
  if queue.messages.length = MESSAGE_CAPACITY then ⟨[message], true⟩
  else { queue with messages := queue.messages ++ [message] }

/-- `free` tells whether the queue could be locked at once, `pushing` is what the flags read then. -/
def enqueue (flags pushing : TargetFlags) (free : Bool) (message : WindowMessage)
    (queue : InputQueue) : InputQueue :=
  if !flags.active || !isPointerFreeMessage message.message || !pushing.active then queue
  else if free then
    queue.pushBounded (message.message, message.wparam,
      if message.message = WM_DEVICECHANGE then 0 else message.lparam)
  else { queue with inputLost := true }

end InputQueue

inductive RawRoute where
  | continueRoute
  | consume
  deriving DecidableEq

/-- The places of the procedure where the flags of the target are read. -/
inductive RoutingPoint where
  | entered
  | routing
  | beforeUi
  | enqueued
  | pushing
  | consuming
  | uiDone
  | afterUi
  | shutDown
  | redirected
  deriving DecidableEq

/-- What one call of the procedure finds: the entry of the window, its target with the flags that other
threads may change in between, and the verdict of the raw callbacks. `unleased` tells that no lease was
left and the predecessor is back in place. -/
structure Dispatch where
  registered : Bool
  targetAlive : Bool
  unleased : Bool
  flags : RoutingPoint → TargetFlags
  queueFree : Bool
  raw : WindowMessage → RawRoute
  cursor : CursorPlatform

inductive Delivered where
  | systemDefault (message : WindowMessage)
  | predecessor (message : WindowMessage)
  | consumed
  deriving DecidableEq

structure Routed where
  services : RuntimeInputServices
  queue : InputQueue
  shutdownRequested : Bool

namespace Dispatch

def routes (dispatch : Dispatch) (window : BitVec 64) (point : RoutingPoint) : Bool :=
  (dispatch.flags point).active && (dispatch.flags point).isBoundWindow window

def afterQueue (dispatch : Dispatch) (platform : ManagedPlatform) (message : WindowMessage)
    (state : Routed) : Delivered × Routed :=
  let (consumed, services) := state.services.afterUi platform message
  let state := { state with services }
  if !dispatch.routes message.window .afterUi then (.predecessor message, state)
  else if consumed then (.consumed, state)
  else
    let state := { state with
      shutdownRequested := state.shutdownRequested ||
        (message.message = WM_DESTROY && (dispatch.flags .shutDown).active) }
    if !dispatch.routes message.window .shutDown then (.predecessor message, state)
    else
      let (redirected, services) := state.services.redirectGameOnly dispatch.cursor message
      let state := { state with services }
      if !dispatch.routes message.window .redirected then (.predecessor message, state)
      else (.predecessor redirected, state)

def route (dispatch : Dispatch) (platform : ManagedPlatform) (message : WindowMessage)
    (state : Routed) : Delivered × Routed :=
  if !dispatch.routes message.window .beforeUi then (.predecessor message, state)
  else if dispatch.raw message = .consume then (.consumed, state)
  else
    let state := { state with
      queue := state.queue.enqueue (dispatch.flags .enqueued) (dispatch.flags .pushing)
        dispatch.queueFree message }
    if !dispatch.routes message.window .uiDone then (.predecessor message, state)
    else if (dispatch.flags .consuming).shouldConsume message.message then (.consumed, state)
    else dispatch.afterQueue platform message state

/-- The window procedure of the overlay. Where routing stops, the message goes on as it came in. -/
def overlayWndProc (dispatch : Dispatch) (platform : ManagedPlatform) (message : WindowMessage)
    (state : Routed) : Delivered × Routed :=
  if !dispatch.registered then (.systemDefault message, state)
  else if message.message = WM_NCDESTROY then (.predecessor message, state)
  else if !(dispatch.targetAlive && (dispatch.flags .entered).active) then
    (.predecessor message, state)
  else if dispatch.unleased then (.predecessor message, state)
  else if dispatch.routes message.window .routing then dispatch.route platform message state
  else (.predecessor message, state)

end Dispatch

end Nexus.WindowInput
