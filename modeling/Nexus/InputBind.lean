import Mathlib.Order.Fin.Basic
import Nexus.Words

namespace Nexus

structure InputDevice where
  raw : Fin (2 ^ 32)
  deriving DecidableEq

namespace InputDevice

def none : InputDevice := ⟨0⟩

def keyboard : InputDevice := ⟨1⟩

def mouse : InputDevice := ⟨2⟩

end InputDevice

inductive MouseButton where
  | none
  | left
  | right
  | middle
  | x1
  | x2
  deriving DecidableEq

namespace MouseButton

def code : MouseButton → Fin (2 ^ 16)
  | .none => 0
  | .left => 1
  | .right => 2
  | .middle => 3
  | .x1 => 4
  | .x2 => 5

def fromCode (code : Fin (2 ^ 16)) : Option MouseButton :=
  match code.val with
  | 0 => some .none
  | 1 => some .left
  | 2 => some .right
  | 3 => some .middle
  | 4 => some .x1
  | 5 => some .x2
  | _ => Option.none

theorem code_of_fromCode {code : Fin (2 ^ 16)} {button : MouseButton}
    (h : fromCode code = some button) : button.code = code := by
  unfold fromCode at h
  refine Fin.ext ?_
  split at h <;> cases h <;> (next hv => rw [hv]; rfl)

end MouseButton

inductive Modifier where
  | alt
  | control
  | shift
  deriving DecidableEq

structure ModifierState where
  alt : Bool
  control : Bool
  shift : Bool
  deriving DecidableEq

namespace ModifierState

def default : ModifierState := ⟨false, false, false⟩

def get (state : ModifierState) : Modifier → Bool
  | .alt => state.alt
  | .control => state.control
  | .shift => state.shift

def set (state : ModifierState) (modifier : Modifier) (value : Bool) : ModifierState :=
  match modifier with
  | .alt => { state with alt := value }
  | .control => { state with control := value }
  | .shift => { state with shift := value }

@[ext] theorem ext_get {a b : ModifierState} (h : ∀ modifier, a.get modifier = b.get modifier) :
    a = b := by
  obtain ⟨_, _, _⟩ := a
  obtain ⟨_, _, _⟩ := b
  have h₁ := h .alt
  have h₂ := h .control
  have h₃ := h .shift
  simp only [get] at h₁ h₂ h₃
  rw [h₁, h₂, h₃]

@[simp] theorem get_set (state : ModifierState) (modifier other : Modifier) (value : Bool) :
    (state.set modifier value).get other = if other = modifier then value else state.get other := by
  cases modifier <;> cases other <;> rfl

end ModifierState

structure InputBind where
  alt : Bool
  control : Bool
  shift : Bool
  device : InputDevice
  code : Fin (2 ^ 16)
  deriving DecidableEq

namespace InputBind

def default : InputBind := ⟨false, false, false, .none, 0⟩

def isBound (bind : InputBind) : Bool := bind.device ≠ .none ∧ bind.code ≠ 0

def modifiers (bind : InputBind) : ModifierState := ⟨bind.alt, bind.control, bind.shift⟩

def normalized (bind : InputBind) : InputBind := if bind.code = 0 then default else bind

/-- Whether a release of `modifier` must release the binding. -/
def requires (bind : InputBind) : Modifier → Bool
  | .alt => bind.alt
  | .control => bind.control
  | .shift => bind.shift

@[simp] theorem modifiers_get (bind : InputBind) (modifier : Modifier) :
    bind.modifiers.get modifier = bind.requires modifier := by
  cases modifier <;> rfl

@[simp] theorem normalized_normalized (bind : InputBind) :
    bind.normalized.normalized = bind.normalized := by
  unfold normalized
  split
  · rfl
  · rfl

end InputBind

inductive InputMessage where
  | activateApp
  | keyDown (modifier : Option Modifier) (scanCode : Fin (2 ^ 16)) (isRepeat : Bool)
  | keyUp (modifier : Option Modifier) (scanCode : Fin (2 ^ 16))
  | mouseDown (button : MouseButton)
  | mouseUp (button : MouseButton)
  deriving DecidableEq

structure CaptureOutcome where
  binding : InputBind
  consumed : Bool
  pressCandidate : Bool

structure InputCapture where
  capturing : Bool
  binding : InputBind
  modifiers : ModifierState

namespace InputCapture

def default : InputCapture := ⟨false, .default, .default⟩

def start (capture : InputCapture) : InputCapture :=
  if capture.capturing then capture else { capture with binding := .default, capturing := true }

def stop (capture : InputCapture) : InputCapture := { capture with capturing := false }

def outcome (capture : InputCapture) (consumed pressCandidate : Bool) : CaptureOutcome :=
  ⟨capture.binding, consumed, pressCandidate⟩

def track (modifiers : ModifierState) : InputMessage → ModifierState
  | .activateApp => .default
  | .keyDown (some modifier) _ false => modifiers.set modifier true
  | .keyUp (some modifier) _ => modifiers.set modifier false
  | _ => modifiers

def process (capture : InputCapture) (message : InputMessage) : CaptureOutcome × InputCapture :=
  let next := { capture with modifiers := track capture.modifiers message }
  match message with
  | .activateApp =>
    let next := { next with
      binding := { next.binding with alt := false, control := false, shift := false } }
    (next.outcome false false, next)
  | .keyDown modifier scanCode isRepeat =>
    if isRepeat then (next.outcome false false, next)
    else
      let required := if modifier.isSome then .default else next.modifiers
      let next := { next with binding :=
        ⟨required.alt, required.control, required.shift, .keyboard, scanCode⟩ }
      (next.outcome next.capturing true, next)
  | .mouseDown button =>
    if button = .middle ∨ button = .x1 ∨ button = .x2 then
      let next := { next with binding := ⟨next.modifiers.alt, next.modifiers.control,
        next.modifiers.shift, .mouse, button.code⟩ }
      (next.outcome next.capturing true, next)
    else (next.outcome false false, next)
  | .keyUp .. => (next.outcome false false, next)
  | .mouseUp _ => (next.outcome false false, next)

@[simp] theorem process_modifiers (capture : InputCapture) (message : InputMessage) :
    (capture.process message).2.modifiers = track capture.modifiers message := by
  cases message with
  | activateApp | keyUp | mouseUp => rfl
  | keyDown _ _ isRepeat => cases isRepeat <;> rfl
  | mouseDown =>
    simp only [process]
    split <;> rfl

theorem process_requires {capture : InputCapture} {message : InputMessage} {modifier : Modifier}
    (hcandidate : (capture.process message).1.pressCandidate = true)
    (h : (capture.process message).1.binding.requires modifier = true) :
    (capture.process message).2.modifiers.get modifier = true := by
  rw [process_modifiers]
  cases message with
  | activateApp | keyUp | mouseUp => cases hcandidate
  | keyDown which _ isRepeat =>
    cases isRepeat with
    | true => cases hcandidate
    | false =>
      cases which with
      | none =>
        rw [← h, ← InputBind.modifiers_get]
        rfl
      | some => cases modifier <;> cases h
  | mouseDown =>
    simp only [process] at hcandidate h
    split at hcandidate
    next hb =>
      rw [if_pos hb] at h
      rw [← h, ← InputBind.modifiers_get]
      rfl
    next => cases hcandidate

end InputCapture

end Nexus
