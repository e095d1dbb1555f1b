import Nexus.WindowRouting

namespace Nexus.WindowInput

section Bits

variable {width : Nat}

theorem getLsbD_byteMask (hwidth : 8 ≤ width) (i : Nat) :
    (BitVec.ofNat width 0xFF).getLsbD i = decide (i < 8) := by
  have hmask : BitVec.ofNat width 0xFF = (BitVec.allOnes 8).setWidth width := by
    refine BitVec.eq_of_toNat_eq ?_
    simp
  rw [hmask, BitVec.getLsbD_setWidth, BitVec.getLsbD_allOnes]
  by_cases hi : i < 8
  · simp [hi, Nat.lt_of_lt_of_le hi hwidth]
  · simp [hi]

theorem getLsbD_ite_twoPow (condition : Prop) [Decidable condition] (bit i : Nat) :
    (if condition then BitVec.twoPow width bit else 0).getLsbD i =
      decide (condition ∧ bit < width ∧ bit = i) := by
  by_cases h : condition
  · rw [if_pos h, BitVec.getLsbD_twoPow]
    simp [h]
  · rw [if_neg h]
    simp [h]

theorem getLsbD_keyLparam (scanCode : BitVec 16) (pressed system : Bool) (i : Nat) :
    (keyLparam scanCode pressed system).getLsbD i =
      (decide (i = 0) || (decide (16 ≤ i ∧ i < 24) && scanCode.getLsbD (i - 16)) ||
        decide (i = 24 ∧ (scanCode >>> 8 = 0xE0 ∨ scanCode >>> 8 = 0xE1)) ||
        (decide (i = 29) && system) || (decide (i = 30 ∨ i = 31) && !pressed)) := by
  have hrelease : (if pressed = true then 0
      else BitVec.twoPow 32 30 ||| BitVec.twoPow 32 31 : BitVec 32).getLsbD i =
        (decide (i = 30 ∨ i = 31) && !pressed) := by
    cases pressed
    · simp [BitVec.getLsbD_twoPow, eq_comm]
    · simp
  unfold keyLparam
  simp only [← BitVec.twoPow_eq, BitVec.getLsbD_setWidth, BitVec.getLsbD_or, hrelease,
    getLsbD_ite_twoPow, BitVec.getLsbD_shiftLeft, BitVec.getLsbD_and]
  have hmask : (0xFF : BitVec 16).getLsbD (i - 16) = decide (i - 16 < 8) :=
    getLsbD_byteMask (by decide) _
  rw [hmask]
  have hone : (1#32).getLsbD i = decide (i = 0) := by simp
  rw [hone]
  generalize scanCode.getLsbD (i - 16) = bit
  rw [Bool.eq_iff_iff]
  simp only [Bool.and_eq_true, Bool.or_eq_true, decide_eq_true_eq, Bool.not_eq_true']
  grind

theorem bitIsSet_eq (value : BitVec 64) (bit : Nat) :
    bitIsSet value bit = value.getLsbD bit := by
  unfold bitIsSet
  rw [← BitVec.twoPow_eq, BitVec.and_twoPow]
  cases h : value.getLsbD bit
  · simp
  · have hbit := BitVec.lt_of_getLsbD h
    rw [if_pos rfl, decide_eq_true_iff]
    intro hzero
    have hset := congrArg (fun bits => bits.getLsbD bit) hzero
    simp [hbit] at hset

theorem scanByte_keyLparam (scanCode : BitVec 16) (pressed system : Bool) :
    ((keyLparam scanCode pressed system >>> 16) &&& 0xFF).setWidth 16 = scanCode &&& 0xFF := by
  refine BitVec.eq_of_getLsbD_eq fun i hi => ?_
  have hlong : (0xFF : BitVec 64).getLsbD i = decide (i < 8) := getLsbD_byteMask (by decide) i
  have hshort : (0xFF : BitVec 16).getLsbD i = decide (i < 8) := getLsbD_byteMask (by decide) i
  rw [BitVec.getLsbD_setWidth, BitVec.getLsbD_and, BitVec.getLsbD_ushiftRight,
    getLsbD_keyLparam, BitVec.getLsbD_and, hlong, hshort, Nat.add_sub_cancel_left]
  generalize scanCode.getLsbD i = bit
  rw [Bool.eq_iff_iff]
  simp only [Bool.and_eq_true, Bool.or_eq_true, decide_eq_true_eq, Bool.not_eq_true']
  grind

theorem scanCodeOf_keyLparam (scanCode : BitVec 16) (pressed system : Bool) :
    scanCodeOf (keyLparam scanCode pressed system) =
      if scanCode >>> 8 = 0xE0 ∨ scanCode >>> 8 = 0xE1 then 0xE000 ||| (scanCode &&& 0xFF)
      else scanCode &&& 0xFF := by
  have hextended : bitIsSet (keyLparam scanCode pressed system) 24 =
      decide (scanCode >>> 8 = 0xE0 ∨ scanCode >>> 8 = 0xE1) := by
    rw [bitIsSet_eq, getLsbD_keyLparam]
    simp
  unfold scanCodeOf
  rw [scanByte_keyLparam, hextended]
  by_cases hprefix : scanCode >>> 8 = 0xE0 ∨ scanCode >>> 8 = 0xE1
  · rw [if_pos hprefix, if_pos (decide_eq_true hprefix)]
    rfl
  · rw [if_neg hprefix, if_neg (by simpa using hprefix)]

theorem toNat_scanByte (scanCode : BitVec 16) :
    (scanCode &&& 0xFF).toNat = scanCode.toNat % 2 ^ 8 := by
  rw [BitVec.toNat_and]
  exact Nat.and_two_pow_sub_one_eq_mod scanCode.toNat 8

theorem toNat_extendedByte (scanCode : BitVec 16) :
    (0xE000 ||| (scanCode &&& 0xFF) : BitVec 16).toNat = 0xE000 + scanCode.toNat % 2 ^ 8 := by
  rw [BitVec.toNat_or, toNat_scanByte]
  exact (Nat.two_pow_add_eq_or_of_lt (Nat.mod_lt _ (by decide : 0 < 2 ^ 8)) 0xE0).symm

theorem shiftRight_eq_iff (scanCode byte : BitVec 16) :
    scanCode >>> 8 = byte ↔ scanCode.toNat / 2 ^ 8 = byte.toNat := by
  rw [← BitVec.toNat_inj, BitVec.toNat_ushiftRight, Nat.shiftRight_eq_div_pow]

theorem scanCodeOf_keyLparam_eq_iff (scanCode : BitVec 16) (pressed system : Bool) :
    scanCodeOf (keyLparam scanCode pressed system) = scanCode ↔
      scanCode >>> 8 = 0 ∨ scanCode >>> 8 = 0xE0 := by
  rw [scanCodeOf_keyLparam]
  split
  next hprefix =>
    rw [← BitVec.toNat_inj, toNat_extendedByte]
    simp only [shiftRight_eq_iff, BitVec.reduceToNat] at hprefix ⊢
    omega
  next hprefix =>
    rw [← BitVec.toNat_inj, toNat_scanByte]
    simp only [shiftRight_eq_iff, BitVec.reduceToNat] at hprefix ⊢
    omega

theorem bitIsSet_keyLparam_release (scanCode : BitVec 16) (pressed system : Bool) :
    bitIsSet (keyLparam scanCode pressed system) 30 = !pressed := by
  rw [bitIsSet_eq, getLsbD_keyLparam]
  simp

end Bits

section Reading

theorem inputMessage_key (window : BitVec 64) (virtualKey : BitVec 64) (scanCode : BitVec 16)
    (pressed system : Bool) :
    inputMessage ⟨window, keyMessageId pressed system, virtualKey,
        keyLparam scanCode pressed system⟩ =
      if virtualKey ≤ 0xFF then
        some (if pressed then
          .keyDown (modifierOf virtualKey)
            (scanCodeOf (keyLparam scanCode pressed system)).toFin false
        else .keyUp (modifierOf virtualKey)
          (scanCodeOf (keyLparam scanCode pressed system)).toFin)
      else none := by
  have hrelease := bitIsSet_keyLparam_release scanCode pressed system
  unfold inputMessage
  dsimp only
  rw [hrelease]
  cases pressed <;> cases system <;> simp [keyMessageId]

def buttonEvent (button : MouseButton) (pressed : Bool) : Option InputMessage :=
  if button = .middle ∨ button = .x1 ∨ button = .x2 then
    some (if pressed then .mouseDown button else .mouseUp button)
  else none

variable {wparam : BitVec 64} {button : MouseButton} {pressed : Bool} {modifiers : ModifierState}

theorem xButtonOf_mouseWparam (hbutton : button = .x1 ∨ button = .x2)
    (hwparam : mouseWparam button pressed modifiers = some wparam) :
    xButtonOf wparam = some button := by
  have hread : (mouseWparam button pressed modifiers).bind xButtonOf = some button := by
    obtain ⟨alt, control, shift⟩ := modifiers
    clear hwparam
    rcases hbutton with rfl | rfl <;> cases pressed <;> cases alt <;> cases control <;>
      cases shift <;> decide
  rw [hwparam] at hread
  exact hread

theorem inputMessage_mouse {window : BitVec 64} {message : BitVec 32} {lparam : BitVec 64}
    (hmessage : mouseMessageId button pressed = some message)
    (hwparam : mouseWparam button pressed modifiers = some wparam) :
    inputMessage ⟨window, message, wparam, lparam⟩ = buttonEvent button pressed := by
  by_cases hbutton : button = .x1 ∨ button = .x2
  · have hread := xButtonOf_mouseWparam hbutton hwparam
    rcases hbutton with rfl | rfl <;> cases pressed <;> cases hmessage <;>
      simp [inputMessage, buttonEvent, hread]
  · cases button <;> cases pressed <;> cases hmessage <;>
      simp_all [inputMessage, buttonEvent]

end Reading

section Sending

variable {win32 : Win32} {adapter : Win32GameInput} {asked : Nat} {sent : GameMessage}
  {native : NativeMessage} {message : BitVec 32}

theorem keyMessageId_lt (pressed system : Bool) : keyMessageId pressed system < WM_USER := by
  cases pressed <;> cases system <;> decide

variable {button : MouseButton} {pressed : Bool}

theorem mouseMessageId_lt (h : mouseMessageId button pressed = some message) :
    message < WM_USER := by
  cases button <;> cases pressed <;> cases h <;> decide

theorem encodeMessage_mouse {modifiers : ModifierState}
    (h : encodeMessage win32 asked (.mouse button pressed modifiers) = some native) :
    mouseMessageId button pressed = some native.message ∧
      mouseWparam button pressed modifiers = some native.wparam := by
  unfold encodeMessage at h
  obtain ⟨⟨_, _⟩, _, h⟩ := Option.bind_eq_some_iff.mp h
  obtain ⟨_, hmessage, h⟩ := Option.bind_eq_some_iff.mp h
  obtain ⟨wparam, hwparam, h⟩ := Option.bind_eq_some_iff.mp h
  cases h
  exact ⟨hmessage, hwparam⟩

theorem encodeMessage_keyboard {scanCode : Fin (2 ^ 16)} {system : Bool}
    (h : encodeMessage win32 asked (.keyboard scanCode pressed system) = some native) :
    native = ⟨keyMessageId pressed system,
      (win32.virtualKeyOf ((BitVec.ofFin scanCode).setWidth 32)).setWidth 64,
      keyLparam (BitVec.ofFin scanCode) pressed system⟩ := by
  unfold encodeMessage at h
  dsimp only at h
  split at h
  · cases h
  · cases h
    rfl

theorem encodeMessage_lt (h : encodeMessage win32 asked sent = some native) :
    native.message < WM_USER := by
  cases sent with
  | modifier _ pressed system =>
    unfold encodeMessage at h
    dsimp only at h
    split at h
    · split at h
      · cases h
      · cases h
        exact keyMessageId_lt pressed system
    · cases h
  | keyboard _ pressed system =>
    rw [encodeMessage_keyboard h]
    exact keyMessageId_lt pressed system
  | mouse => exact mouseMessageId_lt (encodeMessage_mouse h).1

def wireMessage (hwnd : BitVec 64) (native : NativeMessage) : WindowMessage :=
  ⟨hwnd, wireMessageId native.message, native.wparam, native.lparam⟩

namespace Win32GameInput

def Posts (hwnd : BitVec 64) (natives : List NativeMessage)
    (outcome : Bool × Win32GameInput) (adapter : Win32GameInput) : Prop :=
  outcome.2.posted = adapter.posted ++ natives.map (wireMessage hwnd)

theorem post_spec (hwnd : BitVec 64) (native : NativeMessage) (adapter : Win32GameInput) :
    (post win32 hwnd native adapter).1 = true ∧
        Posts hwnd [native] (post win32 hwnd native adapter) adapter ∨
      (post win32 hwnd native adapter).1 = false ∧
        Posts hwnd [] (post win32 hwnd native adapter) adapter := by
  unfold post Posts
  split
  · exact Or.inl ⟨rfl, rfl⟩
  · refine Or.inr ?_
    split
    · exact ⟨rfl, (List.append_nil _).symm⟩
    · exact ⟨rfl, (List.append_nil _).symm⟩

theorem liveWindow_posted (adapter : Win32GameInput) :
    (liveWindow win32 adapter).2.posted = adapter.posted := by
  unfold liveWindow
  split
  · rfl
  · split <;> rfl

theorem sendToGameOnly_spec (message : BitVec 32) (wparam lparam : BitVec 64)
    (adapter : Win32GameInput) :
    ∃ hwnd, (sendToGameOnly win32 message wparam lparam adapter).1 = true ∧
        Posts hwnd [⟨message, wparam, lparam⟩]
          (sendToGameOnly win32 message wparam lparam adapter) adapter ∨
      (sendToGameOnly win32 message wparam lparam adapter).1 = false ∧
        Posts hwnd [] (sendToGameOnly win32 message wparam lparam adapter) adapter := by
  unfold sendToGameOnly
  have hposted := @liveWindow_posted win32 adapter
  rcases hlive : liveWindow win32 adapter with ⟨_ | hwnd, live⟩
  · rw [hlive] at hposted
    refine ⟨0, Or.inr ⟨rfl, ?_⟩⟩
    exact hposted.trans (List.append_nil _).symm
  · rw [hlive] at hposted
    have hpost := @post_spec win32 hwnd ⟨message, wparam, lparam⟩ live
    unfold Posts at hpost ⊢
    rw [hposted] at hpost
    exact ⟨hwnd, hpost⟩

def Encodes (win32 : Win32) (sent : GameMessage) (native : NativeMessage) : Prop :=
  ∃ asked, encodeMessage win32 asked sent = some native

theorem encodes_lt {sent : List GameMessage} {natives : List NativeMessage}
    (h : List.Forall₂ (Encodes win32) sent natives) :
    ∀ native ∈ natives, native.message < WM_USER := by
  induction h with
  | nil => exact nofun
  | cons hencodes _ ih =>
    obtain ⟨_, hencode⟩ := hencodes
    intro native hnative
    rcases List.mem_cons.mp hnative with rfl | hnative
    · exact encodeMessage_lt hencode
    · exact ih native hnative

theorem postAll_spec (hwnd : BitVec 64) (messages : List GameMessage) (adapter : Win32GameInput) :
    ∃ sent rest natives, messages = sent ++ rest ∧ List.Forall₂ (Encodes win32) sent natives ∧
      Posts hwnd natives (postAll win32 hwnd messages adapter) adapter ∧
      ((postAll win32 hwnd messages adapter).1 = true → rest = []) := by
  induction messages generalizing adapter with
  | nil => exact ⟨[], [], [], rfl, .nil, (List.append_nil _).symm, fun _ => rfl⟩
  | cons message messages ih =>
    unfold postAll
    rcases hencode : encodeMessage win32 adapter.asked message with _ | native
    · exact ⟨[], message :: messages, [], rfl, .nil, (List.append_nil _).symm, nofun⟩
    · dsimp only
      have hpost := @post_spec win32 hwnd native { adapter with asked := adapter.asked + 1 }
      rcases hresult : post win32 hwnd native { adapter with asked := adapter.asked + 1 } with
        ⟨ok, posted⟩
      rw [hresult] at hpost
      cases ok with
      | false =>
        rcases hpost with ⟨hok, _⟩ | ⟨_, hposted⟩
        · cases hok
        · exact ⟨[], message :: messages, [], rfl, .nil, hposted, nofun⟩
      | true =>
        rcases hpost with ⟨_, hposted⟩ | ⟨hok, _⟩
        · obtain ⟨sent, rest, natives, hmessages, hencodes, hposts, hall⟩ := ih posted
          refine ⟨message :: sent, rest, native :: natives, ?_, ?_, ?_, hall⟩
          · rw [hmessages, List.cons_append]
          · exact .cons ⟨adapter.asked, hencode⟩ hencodes
          · unfold Posts at hposts hposted ⊢
            dsimp only at hposts hposted ⊢
            rw [hposts, hposted, List.append_assoc, ← List.map_append]
            rfl
        · cases hok

theorem sendBatch_spec (messages : List GameMessage) (adapter : Win32GameInput) :
    ∃ hwnd sent rest natives, messages = sent ++ rest ∧
      List.Forall₂ (Encodes win32) sent natives ∧
      Posts hwnd natives (sendBatch win32 messages adapter) adapter ∧
      ((sendBatch win32 messages adapter).1 = true → rest = []) := by
  unfold sendBatch
  have hposted := @liveWindow_posted win32 adapter
  rcases hlive : liveWindow win32 adapter with ⟨_ | hwnd, live⟩
  · rw [hlive] at hposted
    exact ⟨0, [], messages, [], rfl, .nil, hposted.trans (List.append_nil _).symm, nofun⟩
  · rw [hlive] at hposted
    obtain ⟨sent, rest, natives, hmessages, hencodes, hposts, hall⟩ :=
      @postAll_spec win32 hwnd messages live
    refine ⟨hwnd, sent, rest, natives, hmessages, hencodes, ?_, hall⟩
    unfold Posts at hposts ⊢
    rw [← hposted]
    exact hposts

end Win32GameInput

end Sending

section Dispatching

variable {message : BitVec 32}

theorem wireMessageId_ge (message : BitVec 32) : WM_USER ≤ wireMessageId message := by
  unfold wireMessageId PASSTHROUGH_FIRST
  split <;> bv_omega

theorem redirect_wireMessageId (message : BitVec 32) :
    RuntimeInputServices.redirectMessageId (wireMessageId message) =
      if PASSTHROUGH_FIRST ≤ message ∧ message ≤ PASSTHROUGH_LAST then message - PASSTHROUGH_FIRST
      else message := by
  unfold RuntimeInputServices.redirectMessageId wireMessageId PASSTHROUGH_LAST PASSTHROUGH_FIRST
  by_cases hsmall : message < WM_USER
  · rw [if_pos hsmall, if_pos (by bv_omega), if_neg (by bv_omega)]
    bv_omega
  · rw [if_neg hsmall]

theorem not_mem_of_user {numbers : List (BitVec 32)} (h : WM_USER ≤ message)
    (hnumbers : numbers.all (· < WM_USER) = true) : message ∉ numbers := fun hmem =>
  BitVec.not_lt.mpr h (of_decide_eq_true (List.all_eq_true.mp hnumbers message hmem))

theorem messageClass_of_user (h : WM_USER ≤ message) : messageClass message = .other := by
  unfold messageClass
  rw [if_neg (not_mem_of_user h rfl), if_neg (not_mem_of_user h rfl),
    if_neg (not_mem_of_user h rfl)]

variable {number : BitVec 32}

theorem ne_of_user (h : WM_USER ≤ message) (hnumber : number < WM_USER) : message ≠ number := by
  rintro rfl
  exact BitVec.not_lt.mpr h hnumber

theorem inputMessage_of_user {message : WindowMessage} (h : WM_USER ≤ message.message) :
    inputMessage message = none := by
  have hne {number : BitVec 32} (hnumber : number < WM_USER) : message.message ≠ number :=
    ne_of_user h hnumber
  unfold inputMessage
  rw [if_neg (hne (by decide)), if_neg (by simp [hne]), if_neg (by simp [hne]),
    if_neg (hne (by decide)), if_neg (hne (by decide)), if_neg (hne (by decide)),
    if_neg (hne (by decide))]

variable {dispatch : Dispatch} {platform : ManagedPlatform} {message : WindowMessage}
  {state : Routed}

theorem afterUi_of_user {services : RuntimeInputServices} (h : WM_USER ≤ message.message) :
    services.afterUi platform message = (false, services) := by
  have hdown : decide (message.message = WM_KEYDOWN) = false :=
    decide_eq_false (ne_of_user h (by decide))
  have hclose : services.closeOnEscape message = (false, services) := by
    unfold RuntimeInputServices.closeOnEscape
    split
    · dsimp only
      rw [hdown]
      rfl
    · rfl
  unfold RuntimeInputServices.afterUi
  rw [hclose, inputMessage_of_user h]

variable {flags : TargetFlags}

theorem enqueue_of_user {pushing : TargetFlags} {free : Bool} {queue : InputQueue}
    (h : WM_USER ≤ message.message) : queue.enqueue flags pushing free message = queue := by
  have hother : isPointerFreeMessage message.message = false := by
    unfold isPointerFreeMessage
    rw [messageClass_of_user h]
    simp only [ne_eq, not_true_eq_false, false_or, decide_eq_false_iff_not]
    exact not_mem_of_user h rfl
  unfold InputQueue.enqueue
  rw [hother, if_pos (by simp)]

theorem shouldConsume_of_user (h : WM_USER ≤ number) : flags.shouldConsume number = false := by
  unfold TargetFlags.shouldConsume
  rw [messageClass_of_user h, Bool.and_false]

structure Dispatch.Routes (dispatch : Dispatch) (window : BitVec 64) : Prop where
  registered : dispatch.registered = true
  alive : dispatch.targetAlive = true
  leased : dispatch.unleased = false
  entered : (dispatch.flags .entered).active = true
  points : ∀ point, dispatch.routes window point = true

def redirected (message : WindowMessage) : WindowMessage :=
  { message with message := RuntimeInputServices.redirectMessageId message.message }

/-- How a private message fares: the services behind the procedure do not react to it. -/
structure Bypasses (dispatch : Dispatch) (message : WindowMessage) (state : Routed)
    (outcome : Delivered × Routed) : Prop where
  managed : outcome.2.services.managed = state.services.managed
  escapeClosing : outcome.2.services.escapeClosing = state.services.escapeClosing
  queue : outcome.2.queue = state.queue
  delivered : outcome.1 = .predecessor (redirected message) ∨
    dispatch.raw message = .consume ∧ outcome.1 = .consumed ∨
    ¬ dispatch.Routes message.window ∧
      (outcome.1 = .predecessor message ∨ outcome.1 = .systemDefault message)

theorem Dispatch.not_routes {window : BitVec 64} {point : RoutingPoint}
    (h : (!dispatch.routes window point) = true) : ¬ dispatch.Routes window := by
  intro hroutes
  rw [hroutes.points point] at h
  cases h

theorem Bypasses.unrouted {delivered : Delivered} (h : ¬ dispatch.Routes message.window)
    (hdelivered : delivered = .predecessor message ∨ delivered = .systemDefault message) :
    Bypasses dispatch message state (delivered, state) :=
  ⟨rfl, rfl, rfl, Or.inr (Or.inr ⟨h, hdelivered⟩)⟩

theorem afterQueue_bypasses (h : WM_USER ≤ message.message) :
    Bypasses dispatch message state (dispatch.afterQueue platform message state) := by
  have hdestroy : decide (message.message = WM_DESTROY) = false :=
    decide_eq_false (ne_of_user h (by decide))
  unfold Dispatch.afterQueue
  rw [afterUi_of_user h]
  dsimp only
  rw [hdestroy, Bool.false_and, Bool.or_false]
  split
  next hstopped => exact .unrouted (Dispatch.not_routes hstopped) (Or.inl rfl)
  split
  next hfalse => cases hfalse
  split
  next hstopped => exact .unrouted (Dispatch.not_routes hstopped) (Or.inl rfl)
  split
  next hstopped =>
    exact ⟨rfl, rfl, rfl, Or.inr (Or.inr ⟨Dispatch.not_routes hstopped, Or.inl rfl⟩)⟩
  · exact ⟨rfl, rfl, rfl, Or.inl rfl⟩

theorem route_bypasses (h : WM_USER ≤ message.message) :
    Bypasses dispatch message state (dispatch.route platform message state) := by
  unfold Dispatch.route
  rw [enqueue_of_user h, shouldConsume_of_user h]
  split
  next hstopped => exact .unrouted (Dispatch.not_routes hstopped) (Or.inl rfl)
  split
  next hconsume => exact ⟨rfl, rfl, rfl, Or.inr (Or.inl ⟨hconsume, rfl⟩)⟩
  dsimp only
  split
  next hstopped => exact .unrouted (Dispatch.not_routes hstopped) (Or.inl rfl)
  exact afterQueue_bypasses h

theorem overlayWndProc_bypasses (h : WM_USER ≤ message.message) :
    Bypasses dispatch message state (dispatch.overlayWndProc platform message state) := by
  unfold Dispatch.overlayWndProc
  rw [if_neg (ne_of_user h (by decide : WM_NCDESTROY < WM_USER))]
  split
  next hmissing =>
    refine .unrouted (fun hroutes => ?_) (Or.inr rfl)
    rw [hroutes.registered] at hmissing
    cases hmissing
  split
  next hinactive =>
    refine .unrouted (fun hroutes => ?_) (Or.inl rfl)
    rw [hroutes.alive, hroutes.entered] at hinactive
    cases hinactive
  split
  next hunleased =>
    refine .unrouted (fun hroutes => ?_) (Or.inl rfl)
    rw [hroutes.leased] at hunleased
    cases hunleased
  split
  next => exact route_bypasses h
  next hunbound =>
    exact .unrouted (fun hroutes => hunbound (hroutes.points .routing)) (Or.inl rfl)

end Dispatching

section Delivery

def arrivingId (message : BitVec 32) : BitVec 32 :=
  if PASSTHROUGH_FIRST ≤ message ∧ message ≤ PASSTHROUGH_LAST then message - PASSTHROUGH_FIRST
  else message

def Arrives (hwnd : BitVec 64) (native : NativeMessage) : Prop :=
  ∀ (dispatch : Dispatch) (platform : ManagedPlatform) (state : Routed),
    Bypasses dispatch (wireMessage hwnd native) state
        (dispatch.overlayWndProc platform (wireMessage hwnd native) state) ∧
      (dispatch.Routes hwnd → dispatch.raw (wireMessage hwnd native) = .continueRoute →
        (dispatch.overlayWndProc platform (wireMessage hwnd native) state).1 =
          .predecessor ⟨hwnd, arrivingId native.message, native.wparam, native.lparam⟩)

theorem arrives (hwnd : BitVec 64) (native : NativeMessage) : Arrives hwnd native := by
  intro dispatch platform state
  have hbypasses : Bypasses dispatch (wireMessage hwnd native) state
      (dispatch.overlayWndProc platform (wireMessage hwnd native) state) :=
    overlayWndProc_bypasses (wireMessageId_ge native.message)
  refine ⟨hbypasses, fun hroutes hraw => ?_⟩
  rcases hbypasses.delivered with hredirected | ⟨hconsume, _⟩ | ⟨hstopped, _⟩
  · rw [hredirected]
    unfold redirected wireMessage arrivingId
    rw [redirect_wireMessageId]
  · rw [hraw] at hconsume
    cases hconsume
  · exact absurd hroutes hstopped

/-- Messages for the game only, from the adapter through the window procedure. -/
structure GameOnlyDelivery : Prop where
  sent : ∀ win32 message wparam lparam adapter, ∃ hwnd,
    Arrives hwnd ⟨message, wparam, lparam⟩ ∧
      ((Win32GameInput.sendToGameOnly win32 message wparam lparam adapter).1 = true ∧
          Win32GameInput.Posts hwnd [⟨message, wparam, lparam⟩]
            (Win32GameInput.sendToGameOnly win32 message wparam lparam adapter) adapter ∨
        (Win32GameInput.sendToGameOnly win32 message wparam lparam adapter).1 = false ∧
          Win32GameInput.Posts hwnd []
            (Win32GameInput.sendToGameOnly win32 message wparam lparam adapter) adapter)
  batch : ∀ win32 messages adapter, ∃ hwnd sent rest natives, messages = sent ++ rest ∧
    List.Forall₂ (Win32GameInput.Encodes win32) sent natives ∧
    Win32GameInput.Posts hwnd natives
      (Win32GameInput.sendBatch win32 messages adapter) adapter ∧
    ((Win32GameInput.sendBatch win32 messages adapter).1 = true → rest = []) ∧
    ∀ native ∈ natives, Arrives hwnd native ∧ arrivingId native.message = native.message
  exact : ∀ message : BitVec 32,
    arrivingId message = message ↔ ¬ (PASSTHROUGH_FIRST ≤ message ∧ message ≤ PASSTHROUGH_LAST)
  keyboard : ∀ win32 scanCode pressed system native,
    Win32GameInput.Encodes win32 (.keyboard scanCode pressed system) native →
      scanCodeOf native.lparam =
          (if BitVec.ofFin scanCode >>> 8 = 0xE0 ∨ BitVec.ofFin scanCode >>> 8 = 0xE1 then
            0xE000 ||| (BitVec.ofFin scanCode &&& 0xFF)
          else BitVec.ofFin scanCode &&& 0xFF) ∧
        (scanCodeOf native.lparam = BitVec.ofFin scanCode ↔
          BitVec.ofFin scanCode >>> 8 = 0 ∨ BitVec.ofFin scanCode >>> 8 = 0xE0) ∧
        bitIsSet native.lparam 30 = !pressed ∧
        ∀ window, inputMessage ⟨window, native.message, native.wparam, native.lparam⟩ =
          if native.wparam ≤ 0xFF then
            some (if pressed then
              .keyDown (modifierOf native.wparam) (scanCodeOf native.lparam).toFin false
            else .keyUp (modifierOf native.wparam) (scanCodeOf native.lparam).toFin)
          else none
  mouse : ∀ win32 button pressed modifiers native,
    Win32GameInput.Encodes win32 (.mouse button pressed modifiers) native →
      ∀ window, inputMessage ⟨window, native.message, native.wparam, native.lparam⟩ =
        buttonEvent button pressed

theorem arrivingId_of_lt {message : BitVec 32} (h : message < WM_USER) :
    arrivingId message = message := by
  unfold arrivingId PASSTHROUGH_FIRST
  rw [if_neg]
  bv_omega

theorem arrivingId_eq_iff (message : BitVec 32) :
    arrivingId message = message ↔
      ¬ (PASSTHROUGH_FIRST ≤ message ∧ message ≤ PASSTHROUGH_LAST) := by
  unfold arrivingId PASSTHROUGH_FIRST
  split
  next hrange => exact ⟨fun h => by bv_omega, fun h => absurd hrange h⟩
  next hrange => exact ⟨fun _ => hrange, fun _ => rfl⟩

/-- Every message for the game alone gets past the overlay as the private range allows. -/
theorem gameOnlyDelivery : GameOnlyDelivery where
  sent win32 message wparam lparam adapter := by
    obtain ⟨hwnd, hspec⟩ :=
      @Win32GameInput.sendToGameOnly_spec win32 message wparam lparam adapter
    exact ⟨hwnd, arrives hwnd _, hspec⟩
  batch win32 messages adapter := by
    obtain ⟨hwnd, sent, rest, natives, hmessages, hencodes, hposts, hall⟩ :=
      @Win32GameInput.sendBatch_spec win32 messages adapter
    refine ⟨hwnd, sent, rest, natives, hmessages, hencodes, hposts, hall, fun native hnative => ?_⟩
    exact ⟨arrives hwnd native, arrivingId_of_lt (Win32GameInput.encodes_lt hencodes native hnative)⟩
  exact := arrivingId_eq_iff
  keyboard win32 scanCode pressed system native hencodes := by
    obtain ⟨asked, hencode⟩ := hencodes
    rw [encodeMessage_keyboard hencode]
    exact ⟨scanCodeOf_keyLparam _ pressed system, scanCodeOf_keyLparam_eq_iff _ pressed system,
      bitIsSet_keyLparam_release _ pressed system,
      fun window => inputMessage_key window _ _ pressed system⟩
  mouse win32 button pressed modifiers native hencodes window := by
    obtain ⟨asked, hencode⟩ := hencodes
    obtain ⟨hmessage, hwparam⟩ := encodeMessage_mouse hencode
    exact inputMessage_mouse hmessage hwparam

/-- A window whose overlay routes throughout, with no raw callback in the way. -/
def openDispatch (window : BitVec 64) : Dispatch where
  registered := true
  targetAlive := true
  unleased := false
  flags _ := ⟨true, false, false, false, window⟩
  queueFree := true
  raw _ := .continueRoute
  cursor := ⟨none, fun _ => false, false, fun _ => false⟩

theorem openDispatch_routes : (openDispatch 1).Routes 1 :=
  ⟨rfl, rfl, rfl, rfl, fun point => by cases point <;> rfl⟩

/-- A number in the private range arrives lowered, a raw callback may keep a message from the game, a
dispatch without routing hands on the private number, the second prefix comes back as the first, and a
plain button is not read. -/
theorem private_number_lowered :
    (∀ platform state, ((openDispatch 1).overlayWndProc platform
        (wireMessage 1 ⟨PASSTHROUGH_FIRST, 5, 6⟩) state).1 = .predecessor ⟨1, 0, 5, 6⟩) ∧
      (∀ platform state, (({ openDispatch 1 with raw := fun _ => .consume }).overlayWndProc platform
        (wireMessage 1 ⟨17, 5, 6⟩) state).1 = .consumed) ∧
      (∀ platform state, (({ openDispatch 1 with targetAlive := false }).overlayWndProc platform
        (wireMessage 1 ⟨17, 5, 6⟩) state).1 =
          .predecessor ⟨1, PASSTHROUGH_FIRST + 17, 5, 6⟩) ∧
      scanCodeOf (keyLparam 0xE11D true false) = 0xE01D ∧
      inputMessage ⟨1, WM_LBUTTONDOWN, 1, 0⟩ = none := by
  refine ⟨fun platform state => ?_, fun platform state => ?_, fun platform state => ?_, ?_, ?_⟩
  · exact (arrives 1 ⟨PASSTHROUGH_FIRST, 5, 6⟩ (openDispatch 1) platform state).2
      openDispatch_routes rfl
  · rfl
  · rfl
  · decide
  · decide

end Delivery

end Nexus.WindowInput
