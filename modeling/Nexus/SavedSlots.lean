import Nexus.GameBindXml
import Mathlib.Tactic.IntervalCases

namespace Nexus

namespace InputBind

/-- A binding that a saved document can hold: unbound, a key that the game's layout has, or one of
the five mouse buttons. -/
def Saveable (binding : InputBind) : Prop :=
  binding = .default ∨
    (binding.device = .keyboard ∧ binding.code ∈ gameScanCodes.map Prod.snd) ∨
      (binding.device = .mouse ∧ 1 ≤ binding.code.val ∧ binding.code.val ≤ 5)

instance (binding : InputBind) : Decidable binding.Saveable :=
  inferInstanceAs (Decidable (_ ∨ _))

theorem default_saveable : InputBind.default.Saveable := Or.inl rfl

theorem code_ne_zero_of_mem {code : Fin (2 ^ 16)} (h : code ∈ gameScanCodes.map Prod.snd) :
    code ≠ 0 := by
  rintro rfl
  exact absurd h (by decide)

theorem Saveable.normalized {binding : InputBind} (h : binding.Saveable) :
    binding.normalized = binding := by
  rcases h with rfl | ⟨_, hcode⟩ | ⟨_, hcode, _⟩
  · rfl
  · exact if_neg (code_ne_zero_of_mem hcode)
  · refine if_neg fun hzero => ?_
    rw [hzero] at hcode
    exact absurd hcode (by decide)

def deviceText (binding : InputBind) : String :=
  if binding.device = .keyboard ∧ binding.code ≠ 0 then "Keyboard"
  else if binding.device = .mouse ∧ binding.code ≠ 0 then "Mouse"
  else "None"

def buttonText (binding : InputBind) : Option String :=
  if binding.device = .keyboard ∧ binding.code ≠ 0 then
    some (scanCodeToGameScanCode binding.code).val.repr
  else if binding.device = .mouse ∧ binding.code ≠ 0 then mouseButtonToGame binding.code
  else none

def modifierText (binding : InputBind) : Option String :=
  if modifierMask binding ≠ 0 then some (modifierMask binding).repr else none

end InputBind

theorem appendXmlSlot_eq (attributes : List (String × String)) (binding : InputBind)
    (deviceSuffix buttonSuffix modifierSuffix : String) :
    appendXmlSlot attributes binding deviceSuffix buttonSuffix modifierSuffix =
      attributes ++ ([("device" ++ deviceSuffix, binding.deviceText)] ++
        (binding.buttonText.map fun text => ("button" ++ buttonSuffix, text)).toList ++
        (binding.modifierText.map fun text => ("mod" ++ modifierSuffix, text)).toList) := by
  simp only [appendXmlSlot, InputBind.deviceText, InputBind.buttonText, InputBind.modifierText]
  by_cases hkeyboard : binding.device = .keyboard ∧ binding.code ≠ 0
  · simp only [if_pos hkeyboard]
    by_cases hmask : modifierMask binding ≠ 0
    · simp [hmask]
    · simp [hmask]
  · simp only [if_neg hkeyboard]
    by_cases hmouse : binding.device = .mouse ∧ binding.code ≠ 0
    · simp only [if_pos hmouse]
      cases mouseButtonToGame binding.code <;> by_cases hmask : modifierMask binding ≠ 0 <;>
        simp [hmask]
    · simp only [if_neg hmouse]
      by_cases hmask : modifierMask binding ≠ 0
      · simp [hmask]
      · simp [hmask]

def slotOfTexts (device button modifier : Option String) : Option InputBind := do
  let device ← device
  let modifierBits := (modifier.bind (parseUnsigned (2 ^ 8))).getD 0
  if device = "Keyboard" then
    let button ← button
    let gameCode ← parseUnsigned (2 ^ 16) button
    some (maskedBind modifierBits .keyboard (gameScanCodeToScanCode gameCode)).normalized
  else if device = "Mouse" then
    let button ← button
    match gameToMouseButton button with
    | some button => some (maskedBind modifierBits .mouse button.code).normalized
    | none => some .default
  else some .default

theorem parseXmlSlot_eq (attributes : XmlAttributes)
    (deviceSuffix buttonSuffix modifierSuffix : String) :
    parseXmlSlot attributes deviceSuffix buttonSuffix modifierSuffix =
      slotOfTexts (attributes.get? ("device" ++ deviceSuffix))
        (attributes.get? ("button" ++ buttonSuffix))
        (attributes.get? ("mod" ++ modifierSuffix)) := rfl

theorem modifierMask_lt (binding : InputBind) : modifierMask binding < 2 ^ 8 := by
  obtain ⟨alt, control, shift, _, _⟩ := binding
  cases alt <;> cases control <;> cases shift <;> exact of_decide_eq_true rfl

theorem maskedBind_modifierMask (binding : InputBind) (device : InputDevice)
    (code : Fin (2 ^ 16)) :
    maskedBind ⟨modifierMask binding, modifierMask_lt binding⟩ device code =
      { binding with device := device, code := code } := by
  obtain ⟨alt, control, shift, _, _⟩ := binding
  cases alt <;> cases control <;> cases shift <;> simp [maskedBind, modifierMask]

theorem parse_modifierText (binding : InputBind) :
    (binding.modifierText.bind (parseUnsigned (2 ^ 8))).getD 0 =
      ⟨modifierMask binding, modifierMask_lt binding⟩ := by
  unfold InputBind.modifierText
  by_cases hmask : modifierMask binding ≠ 0
  · rw [if_pos hmask, Option.bind_some]
    have hread := parseUnsigned_repr (⟨modifierMask binding, modifierMask_lt binding⟩ : Fin (2 ^ 8))
    rw [hread, Option.getD_some]
  · rw [if_neg hmask, Option.bind_none, Option.getD_none]
    exact Fin.ext (not_not.mp hmask).symm

def reloadedSlot (binding : InputBind) : Option InputBind :=
  slotOfTexts (some binding.deviceText) binding.buttonText binding.modifierText

variable {binding : InputBind}

theorem reloadedSlot_keyboard (hdevice : binding.device = .keyboard) (hcode : binding.code ≠ 0) :
    reloadedSlot binding = some { binding with
      code := gameScanCodeToScanCode (scanCodeToGameScanCode binding.code) }.normalized := by
  have hkeyboard : binding.device = .keyboard ∧ binding.code ≠ 0 := ⟨hdevice, hcode⟩
  simp only [reloadedSlot, slotOfTexts, InputBind.deviceText, InputBind.buttonText,
    if_pos hkeyboard, parse_modifierText, maskedBind_modifierMask, Option.bind_eq_bind,
    Option.bind_some, if_true, parseUnsigned_repr]
  rw [← hdevice]

variable {code : Fin (2 ^ 16)}

theorem gameToMouseButton_mouseButtonToGame {button : MouseButton}
    (hbutton : MouseButton.fromCode code = some button) (hne : button ≠ .none) :
    ∃ text, mouseButtonToGame code = some text ∧ gameToMouseButton text = some button := by
  unfold mouseButtonToGame
  rw [hbutton]
  cases button with
  | none => exact absurd rfl hne
  | left => exact ⟨"0", rfl, rfl⟩
  | right => exact ⟨"2", rfl, rfl⟩
  | middle => exact ⟨"1", rfl, rfl⟩
  | x1 => exact ⟨"3", rfl, rfl⟩
  | x2 => exact ⟨"4", rfl, rfl⟩

theorem mouse_coded (hdevice : binding.device = .mouse) (hlow : 1 ≤ binding.code.val) :
    ¬(binding.device = .keyboard ∧ binding.code ≠ 0) ∧
      binding.device = .mouse ∧ binding.code ≠ 0 := by
  refine ⟨?_, hdevice, fun hzero => ?_⟩
  · rw [hdevice]
    exact fun h => absurd h.1 (by decide)
  · rw [hzero] at hlow
    exact absurd hlow (by decide)

theorem reloadedSlot_mouse (hdevice : binding.device = .mouse) (hlow : 1 ≤ binding.code.val)
    (hhigh : binding.code.val ≤ 5) : reloadedSlot binding = some binding := by
  obtain ⟨hkeyboard, hmouse⟩ := mouse_coded hdevice hlow
  obtain ⟨button, hbutton, hne⟩ :
      ∃ button, MouseButton.fromCode binding.code = some button ∧ button ≠ .none := by
    unfold MouseButton.fromCode
    generalize binding.code.val = value at hlow hhigh
    interval_cases value <;> exact ⟨_, rfl, by decide⟩
  obtain ⟨_, htext, hback⟩ := gameToMouseButton_mouseButtonToGame hbutton hne
  have hsame : button.code = binding.code := MouseButton.code_of_fromCode hbutton
  simp only [reloadedSlot, slotOfTexts, InputBind.deviceText, InputBind.buttonText,
    if_neg hkeyboard, if_pos hmouse, parse_modifierText, maskedBind_modifierMask, htext,
    Option.bind_eq_bind, Option.bind_some, hback, hsame]
  rw [if_neg (by decide), if_pos trivial, ← hdevice]
  exact congrArg some (if_neg hmouse.2)

theorem fromCode_unknown (h : 5 < code.val) : MouseButton.fromCode code = none := by
  unfold MouseButton.fromCode
  split
  case h_7 => rfl
  all_goals omega

/-- A mouse button that the game does not have is saved without a button, and the slot is then
left as the default table has it. -/
theorem reloadedSlot_unknown_mouse (hdevice : binding.device = .mouse)
    (hhigh : 5 < binding.code.val) : reloadedSlot binding = none := by
  obtain ⟨hkeyboard, hmouse⟩ := mouse_coded hdevice (by omega)
  have hbutton : mouseButtonToGame binding.code = none := by
    unfold mouseButtonToGame
    rw [fromCode_unknown hhigh]
  simp only [reloadedSlot, slotOfTexts, InputBind.deviceText, InputBind.buttonText,
    if_neg hkeyboard, if_pos hmouse, hbutton, Option.bind_eq_bind, Option.bind_some,
    Option.bind_none]
  rw [if_neg (by decide), if_pos trivial]

theorem reloadedSlot_other (hkeyboard : ¬(binding.device = .keyboard ∧ binding.code ≠ 0))
    (hmouse : ¬(binding.device = .mouse ∧ binding.code ≠ 0)) :
    reloadedSlot binding = some .default := by
  simp [reloadedSlot, slotOfTexts, InputBind.deviceText, hkeyboard, hmouse]

theorem gameScanCodes_inverse : ∀ entry ∈ gameScanCodes,
    gameScanCodeToScanCode entry.1 = entry.2 ∧ scanCodeToGameScanCode entry.2 = entry.1 := by
  have hall : (gameScanCodes.all fun entry => gameScanCodeToScanCode entry.1 = entry.2 ∧
      scanCodeToGameScanCode entry.2 = entry.1) = true := by
    decide +kernel
  intro entry hentry
  exact of_decide_eq_true (List.all_eq_true.mp hall entry hentry)

theorem scanCode_gameScanCode (h : code ∈ gameScanCodes.map Prod.snd) :
    gameScanCodeToScanCode (scanCodeToGameScanCode code) = code := by
  obtain ⟨entry, hentry, rfl⟩ := List.mem_map.mp h
  obtain ⟨hforward, hback⟩ := gameScanCodes_inverse entry hentry
  rw [hback, hforward]

theorem scanCodeToGameScanCode_unknown (h : code ∉ gameScanCodes.map Prod.snd) :
    scanCodeToGameScanCode code = 0 := by
  unfold scanCodeToGameScanCode
  have hfind : (gameScanCodes.find? fun entry => entry.2 = code) = none := by
    rw [List.find?_eq_none]
    intro entry hentry heq
    exact h (of_decide_eq_true heq ▸ List.mem_map_of_mem hentry)
  rw [hfind]
  rfl

theorem reloadedSlot_of_saveable (h : binding.Saveable) : reloadedSlot binding = some binding := by
  have hnormal := h.normalized
  rcases h with rfl | ⟨hdevice, hcode⟩ | ⟨hdevice, hlow, hhigh⟩
  · exact reloadedSlot_other (by decide) (by decide)
  · rw [reloadedSlot_keyboard hdevice (InputBind.code_ne_zero_of_mem hcode),
      scanCode_gameScanCode hcode]
    exact congrArg some hnormal
  · exact reloadedSlot_mouse hdevice hlow hhigh

theorem reloadedSlot_of_not_saveable {base : InputBind} (h : ¬binding.Saveable)
    (hnormal : binding.normalized = binding) (hbase : base.Saveable) :
    (reloadedSlot binding).getD base ≠ binding := by
  have hcode : binding.code ≠ 0 := by
    intro hzero
    refine h (Or.inl ?_)
    rw [← hnormal]
    exact if_pos hzero
  intro heq
  by_cases hkeyboard : binding.device = .keyboard
  · have hunknown : binding.code ∉ gameScanCodes.map Prod.snd :=
      fun hmem => h (Or.inr (Or.inl ⟨hkeyboard, hmem⟩))
    rw [reloadedSlot_keyboard hkeyboard hcode, scanCodeToGameScanCode_unknown hunknown,
      Option.getD_some] at heq
    have halt : binding.code = 0x38 := by
      rw [← heq]
      rfl
    rw [halt] at hunknown
    exact hunknown (by decide)
  · by_cases hmouse : binding.device = .mouse
    · have hhigh : 5 < binding.code.val := by
        by_contra hle
        have hlow : binding.code.val ≠ 0 := fun hzero => hcode (Fin.ext hzero)
        exact h (Or.inr (Or.inr ⟨hmouse, by omega, by omega⟩))
      rw [reloadedSlot_unknown_mouse hmouse hhigh, Option.getD_none] at heq
      exact h (heq ▸ hbase)
    · rw [reloadedSlot_other (fun hk => hkeyboard hk.1) (fun hm => hmouse hm.1),
        Option.getD_some] at heq
      exact h (Or.inl heq.symm)

end Nexus
