import Nexus.DeliveredKeys
import Nexus.GameMessageDelivery
import Nexus.GamePresses

namespace Nexus.WindowInput

open Fallible

inductive NativeKey where
  | key (virtualKey : BitVec 64)
  | button (button : MouseButton)
  deriving DecidableEq

def buttonMessages : List (BitVec 32 × MouseButton × Bool) :=
  [(WM_LBUTTONDOWN, .left, true), (WM_LBUTTONUP, .left, false), (WM_RBUTTONDOWN, .right, true),
    (WM_RBUTTONUP, .right, false), (WM_MBUTTONDOWN, .middle, true), (WM_MBUTTONUP, .middle, false)]

def keyTransition (message : WindowMessage) : Option (NativeKey × Bool) :=
  let number := RuntimeInputServices.redirectMessageId message.message
  if number = WM_KEYDOWN ∨ number = WM_SYSKEYDOWN then some (.key message.wparam, true)
  else if number = WM_KEYUP ∨ number = WM_SYSKEYUP then some (.key message.wparam, false)
  else if number = WM_XBUTTONDOWN ∨ number = WM_XBUTTONUP then
    (xButtonOf message.wparam).map fun button => (.button button, number = WM_XBUTTONDOWN)
  else (buttonMessages.find? fun entry => entry.1 = number).map fun entry =>
    (.button entry.2.1, entry.2.2)

abbrev GameKeys := NativeKey → Bool

def transit (keys : GameKeys) (transitions : List (NativeKey × Bool)) : GameKeys :=
  transitions.foldl (fun keys change => Function.update keys change.1 change.2) keys

def keysAfter (keys : GameKeys) (messages : List WindowMessage) : GameKeys :=
  transit keys (messages.filterMap keyTransition)

variable {transitions : List (NativeKey × Bool)}

theorem transit_of_not_mem (keys : GameKeys) {key : NativeKey}
    (h : key ∉ transitions.map Prod.fst) : transit keys transitions key = keys key := by
  induction transitions generalizing keys with
  | nil => rfl
  | cons _ _ ih =>
    obtain ⟨hne, hrest⟩ := not_or.mp (mt List.mem_cons.mpr h)
    exact (ih _ hrest).trans (Function.update_of_ne hne ..)

variable {keys : GameKeys}

theorem transit_eq_iff (hnodup : (transitions.map Prod.fst).Nodup) :
    transit keys transitions = keys ↔ ∀ change ∈ transitions, keys change.1 = change.2 := by
  induction transitions generalizing keys with
  | nil => exact ⟨fun _ _ hmem => (by cases hmem), fun _ => rfl⟩
  | cons change transitions ih =>
    obtain ⟨hnew, hnodup⟩ := List.nodup_cons.mp hnodup
    constructor
    · intro hsame
      have hlast := transit_of_not_mem (Function.update keys change.1 change.2) hnew
      have hchange : keys change.1 = change.2 := by
        rw [Function.update_self] at hlast
        rw [← hlast]
        exact congrFun hsame.symm change.1
      have hfirst : Function.update keys change.1 change.2 = keys := by
        rw [← hchange, Function.update_eq_self]
      have hrest : transit (Function.update keys change.1 change.2) transitions = keys := hsame
      rw [hfirst] at hrest
      exact List.forall_mem_cons.mpr ⟨hchange, (ih hnodup).mp hrest⟩
    · intro hall
      obtain ⟨hchange, hrest⟩ := List.forall_mem_cons.mp hall
      have hfirst : Function.update keys change.1 change.2 = keys := by
        rw [← hchange, Function.update_eq_self]
      unfold transit
      rw [List.foldl_cons, hfirst]
      exact (ih hnodup).mpr hrest

/-- The messages that the system takes before the first that it does not, with their tuples.
`asked` is the number of the next question. -/
def outgoing (win32 : Win32) : Nat → List GameMessage → List (GameMessage × NativeMessage)
  | _, [] => []
  | asked, message :: messages =>
    match encodeMessage win32 asked message with
    | none => []
    | some native =>
      if win32.posted (asked + 1) then (message, native) :: outgoing win32 (asked + 2) messages
      else []

namespace Win32GameInput

variable {win32 : Win32}

theorem postAll_eq (hwnd : BitVec 64) (messages : List GameMessage) (adapter : Win32GameInput) :
    (postAll win32 hwnd messages adapter).2.posted = adapter.posted ++
        (outgoing win32 adapter.asked messages).map (fun sent => wireMessage hwnd sent.2) ∧
      ((postAll win32 hwnd messages adapter).1 = true ↔
        (outgoing win32 adapter.asked messages).length = messages.length) := by
  induction messages generalizing adapter with
  | nil => exact ⟨(List.append_nil _).symm, fun _ => rfl, fun _ => rfl⟩
  | cons message _ ih =>
    unfold postAll outgoing
    cases hencode : encodeMessage win32 adapter.asked message with
    | none => exact ⟨(List.append_nil _).symm, fun h => (by cases h), fun h => (by cases h)⟩
    | some native =>
      dsimp only
      unfold post
      dsimp only
      by_cases hposted : win32.posted (adapter.asked + 1) = true
      · rw [if_pos hposted, if_pos hposted]
        obtain ⟨hrest, hall⟩ := ih { adapter with
          posted := adapter.posted ++ [wireMessage hwnd native]
          asked := adapter.asked + 2 }
        refine ⟨hrest.trans ?_, hall.trans ?_⟩
        · rw [List.map_cons, List.append_assoc, List.singleton_append]
        · rw [List.length_cons, List.length_cons, Nat.succ_inj]
      · rw [if_neg hposted, if_neg hposted]
        by_cases hwindow : hwnd ≠ 0 ∧ win32.isWindow (adapter.asked + 1 + 1) hwnd = true
        · rw [if_pos hwindow]
          exact ⟨(List.append_nil _).symm, fun h => (by cases h), fun h => (by cases h)⟩
        · rw [if_neg hwindow]
          exact ⟨(List.append_nil _).symm, fun h => (by cases h), fun h => (by cases h)⟩

theorem outgoing_prefix (win32 : Win32) (asked : Nat) (messages : List GameMessage) :
    (outgoing win32 asked messages).map Prod.fst <+: messages := by
  induction messages generalizing asked with
  | nil => exact List.prefix_rfl
  | cons _ _ ih =>
    unfold outgoing
    split
    · exact List.nil_prefix
    · split
      · exact List.cons_prefix_cons.mpr ⟨rfl, ih _⟩
      · exact List.nil_prefix

theorem encodes_of_mem_outgoing {asked : Nat} {messages : List GameMessage}
    {sent : GameMessage × NativeMessage} (h : sent ∈ outgoing win32 asked messages) :
    Encodes win32 sent.1 sent.2 := by
  induction messages generalizing asked with
  | nil => cases h
  | cons _ _ ih =>
    unfold outgoing at h
    split at h
    · cases h
    next hencode =>
      split at h
      · rcases List.mem_cons.mp h with rfl | hrest
        · exact ⟨asked, hencode⟩
        · exact ih hrest
      · cases h

end Win32GameInput

section Modifiers

variable {win32 : Win32}

def modifierKey (modifier : Modifier) : NativeKey :=
  .key ((modifierVirtualKey modifier).setWidth 64)

def modifierChange : GameMessage → Option (NativeKey × Bool)
  | .modifier modifier pressed _ => some (modifierKey modifier, pressed)
  | .keyboard .. => none
  | .mouse .. => none

theorem redirect_wireMessageId_key (pressed system : Bool) :
    RuntimeInputServices.redirectMessageId (wireMessageId (keyMessageId pressed system)) =
      keyMessageId pressed system := by
  cases pressed <;> cases system <;> decide

variable {hwnd : BitVec 64}

theorem keyTransition_modifier {modifier : Modifier} {pressed system : Bool}
    {native : NativeMessage}
    (h : Win32GameInput.Encodes win32 (.modifier modifier pressed system) native) :
    keyTransition (wireMessage hwnd native) =
      modifierChange (.modifier modifier pressed system) := by
  obtain ⟨_, hencode⟩ := h
  unfold encodeMessage at hencode
  dsimp only at hencode
  split at hencode
  · split at hencode
    · cases hencode
    · cases hencode
      unfold keyTransition wireMessage
      dsimp only
      rw [redirect_wireMessageId_key]
      cases pressed <;> cases system <;> rfl
  · cases hencode

theorem pressModifiers_sublist (desired physical : ModifierState) (modifiers : List Modifier) :
    (((modifiers.filterMap fun modifier =>
        if desired.get modifier then some (modifierMessage modifier true)
        else if physical.get modifier then some (modifierMessage modifier false)
        else none).filterMap modifierChange).map Prod.fst).Sublist (modifiers.map modifierKey) := by
  induction modifiers with
  | nil => exact List.Sublist.refl _
  | cons modifier _ ih =>
    by_cases hdesired : desired.get modifier = true
    · simpa [hdesired, modifierMessage, modifierChange] using ih
    · by_cases hphysical : physical.get modifier = true
      · simpa [hdesired, hphysical, modifierMessage, modifierChange] using ih
      · simpa [hdesired, hphysical] using ih.cons (modifierKey modifier)

theorem pressModifiers_nodup (desired physical : ModifierState) :
    (((pressModifiers desired physical).filterMap modifierChange).map Prod.fst).Nodup :=
  (pressModifiers_sublist desired physical Modifier.all).nodup (by decide)

theorem pressModifiers_change {desired physical : ModifierState} {message : GameMessage}
    (h : message ∈ pressModifiers desired physical) :
    ∃ modifier pressed system, message = .modifier modifier pressed system := by
  obtain ⟨modifier, _, hsome⟩ := List.mem_filterMap.mp h
  split at hsome
  · cases hsome
    exact ⟨modifier, true, _, rfl⟩
  · split at hsome
    · cases hsome
      exact ⟨modifier, false, _, rfl⟩
    · cases hsome

theorem filterMap_keyTransition (win32 : Win32) {sent : List (GameMessage × NativeMessage)}
    (hencodes : ∀ item ∈ sent, Win32GameInput.Encodes win32 item.1 item.2)
    (hmodifiers : ∀ message ∈ sent.map Prod.fst,
      ∃ modifier pressed system, message = .modifier modifier pressed system) :
    (sent.map fun item => wireMessage hwnd item.2).filterMap keyTransition =
      (sent.map Prod.fst).filterMap modifierChange := by
  rw [List.filterMap_map, List.filterMap_map]
  refine List.filterMap_congr fun item hmem => ?_
  obtain ⟨modifier, pressed, system, heq⟩ := hmodifiers item.1 (List.mem_map_of_mem hmem)
  have hencode := hencodes item hmem
  rw [heq] at hencode
  exact (keyTransition_modifier hencode).trans (congrArg modifierChange heq.symm)

end Modifiers

def Repeats (keys : GameKeys) (message : GameMessage) : Prop :=
  ∀ change, modifierChange message = some change → keys change.1 = change.2

variable {messages : List GameMessage}

/-- What goes out of a press that stops before its end changes nothing exactly when each message
repeats what the game has. -/
theorem keysAfter_outgoing_iff {win32 : Win32} {binding : InputBind} {physical : ModifierState}
    (hmessages : pressMessages binding physical = .ok messages) {asked : Nat}
    (hstopped : (outgoing win32 asked messages).length < messages.length) (hwnd : BitVec 64)
    (keys : GameKeys) :
    keysAfter keys ((outgoing win32 asked messages).map fun sent => wireMessage hwnd sent.2) =
        keys ↔
      ∀ message ∈ (outgoing win32 asked messages).map Prod.fst, Repeats keys message := by
  obtain ⟨main, _, rfl⟩ := pressMessages_ok hmessages
  generalize hsent : outgoing win32 asked _ = sent at hstopped ⊢
  have hinitial : sent.map Prod.fst <+: pressModifiers binding.modifiers physical := by
    have hall := Win32GameInput.outgoing_prefix win32 asked
      (pressModifiers binding.modifiers physical ++ [main])
    rw [hsent] at hall
    refine List.prefix_of_prefix_length_le hall (List.prefix_append _ _) ?_
    rw [List.length_append, List.length_singleton] at hstopped
    rw [List.length_map]
    omega
  have htransitions : (sent.map fun item => wireMessage hwnd item.2).filterMap keyTransition =
      (sent.map Prod.fst).filterMap modifierChange := by
    refine filterMap_keyTransition win32 (fun item hmem => ?_) fun message hmem =>
      pressModifiers_change (hinitial.subset hmem)
    exact Win32GameInput.encodes_of_mem_outgoing (hsent ▸ hmem)
  have hnodup : (((sent.map Prod.fst).filterMap modifierChange).map Prod.fst).Nodup :=
    (pressModifiers_nodup binding.modifiers physical).sublist
      ((hinitial.sublist.filterMap modifierChange).map Prod.fst)
  unfold keysAfter
  rw [htransitions, transit_eq_iff hnodup]
  constructor
  · intro hall message hmem change hchange
    exact hall change (List.mem_filterMap.mpr ⟨message, hmem, hchange⟩)
  · intro hall change hmem
    obtain ⟨message, hmem, hchange⟩ := List.mem_filterMap.mp hmem
    exact hall message hmem change hchange

def pressBatch (platform : GamePlatform) (game : GameWorld) (action : GameBindId) :
    Option (List GameMessage) :=
  if game.invoker.active.get? action = none then
    (GameInvoker.boundNow game action).bind fun binding =>
      match platform.physical game.polls with
      | .returned physical => (pressMessages binding physical).toOption
      | .unwound => none
  else none

namespace Win32World

variable {platform : GamePlatform} {win32 : Win32}

structure Unsent (platform : GamePlatform) (action : GameBindId) (world next : Win32World) :
    Prop where
  batch : pressBatch platform world.game action = none
  invoker : next.game.invoker = world.game.invoker
  adapter : next.adapter = world.adapter

/-- The adapter was given the batch and answered. -/
structure Sent (platform : GamePlatform) (win32 : Win32) (action : GameBindId)
    (messages : List GameMessage) (answer : Bool) (world next : Win32World) : Prop where
  batch : pressBatch platform world.game action = some messages
  sent : Win32GameInput.sendBatch win32 messages world.adapter = (answer, next.adapter)

variable {action : GameBindId} {world : Win32World}

theorem sendPress_cases (platform : GamePlatform) (win32 : Win32) {binding : InputBind}
    (hinactive : world.game.invoker.active.get? action = none)
    (hbound : GameInvoker.boundNow world.game action = some binding) :
    (∃ e next, sendPress platform win32 binding world = (.error e, next) ∧
      Unsent platform action world next) ∨
    (∃ messages next, sendPress platform win32 binding world = (.error .sinkFailed, next) ∧
      Sent platform win32 action messages false world next ∧
      next.game.invoker = world.game.invoker) ∨
    (∃ messages next, sendPress platform win32 binding world = (.ok messages, next) ∧
      Sent platform win32 action messages true world next ∧
      next.game.invoker = world.game.invoker) := by
  have hbatch : pressBatch platform world.game action =
      match platform.physical world.game.polls with
      | .returned physical => (pressMessages binding physical).toOption
      | .unwound => none := by
    unfold pressBatch
    rw [if_pos hinactive, hbound]
    rfl
  unfold sendPress onGame
  cases hphysical : platform.physical world.game.polls with
  | unwound =>
    rw [hphysical] at hbatch
    dsimp only at hbatch
    have hpoll : zoom game setGame (GameInvoker.pollModifiers platform) world =
        (.error .sinkPanicked,
          setGame { world.game with polls := world.game.polls + 1 } world) := by
      rw [zoom_apply, GameInvoker.pollModifiers, hphysical]
    rw [bind_of_error hpoll]
    exact Or.inl ⟨_, _, rfl, hbatch, rfl, rfl⟩
  | returned physical =>
    rw [hphysical] at hbatch
    dsimp only at hbatch
    have hpoll : zoom game setGame (GameInvoker.pollModifiers platform) world =
        (.ok physical, setGame { world.game with polls := world.game.polls + 1 } world) := by
      rw [zoom_apply, GameInvoker.pollModifiers, hphysical]
    rw [bind_of_ok hpoll]
    cases hmessages : pressMessages binding physical with
    | error e =>
      rw [hmessages] at hbatch
      exact Or.inl ⟨e, _, rfl, hbatch, rfl, rfl⟩
    | ok messages =>
      rw [hmessages] at hbatch
      rw [ofExcept_ok, pure_bind']
      rcases hsend : Win32GameInput.sendBatch win32 messages world.adapter with ⟨answer, adapter⟩
      have hanswer := send_apply win32 (.press binding messages)
        (setGame { world.game with polls := world.game.polls + 1 } world)
      rw [show Win32GameInput.sendBatch win32 (GameDelivery.press binding messages).messages
        (setGame { world.game with polls := world.game.polls + 1 } world).adapter =
          (answer, adapter) from hsend] at hanswer
      cases answer with
      | false =>
        rw [bind_of_error hanswer]
        exact Or.inr (Or.inl ⟨messages, _, rfl, ⟨hbatch, hsend⟩, rfl⟩)
      | true =>
        rw [bind_of_ok hanswer]
        exact Or.inr (Or.inr ⟨messages, _, rfl, ⟨hbatch, hsend⟩, rfl⟩)

theorem pressNewTracked_cases (platform : GamePlatform) (win32 : Win32) (action : GameBindId)
    (world : Win32World) :
    (∃ e next, pressNewTracked platform win32 action world = (.error e, next) ∧
      Unsent platform action.canonical world next) ∨
    (∃ messages next, pressNewTracked platform win32 action world = (.error .sinkFailed, next) ∧
      Sent platform win32 action.canonical messages false world next ∧
      next.game.invoker = world.game.invoker) ∨
    (∃ dispatch token messages next,
      pressNewTracked platform win32 action world = (.ok (dispatch, token), next) ∧
      Sent platform win32 action.canonical messages true world next ∧
      dispatch.action = action.canonical ∧
      next.game.invoker.active.get? action.canonical ≠ none) := by
  have hread : (onGame read : Win32Method GameWorld) world = (.ok world.game, world) := rfl
  unfold pressNewTracked
  rw [bind_of_ok hread]
  by_cases hinactive : world.game.invoker.active.get? action.canonical = none
  · rw [ensure_true hinactive, pure_bind']
    cases hbound : GameInvoker.boundNow world.game action.canonical with
    | none =>
      refine Or.inl ⟨_, _, rfl, ?_, rfl, rfl⟩
      unfold pressBatch
      rw [hbound]
      exact ite_self _
    | some binding =>
      rw [require_some, pure_bind']
      rcases sendPress_cases platform win32 hinactive hbound with
        ⟨e, next, hsend, hunsent⟩ | ⟨messages, next, hsend, hsent, hinvoker⟩ |
        ⟨messages, next, hsend, hsent, hinvoker⟩
      · rw [bind_of_error hsend]
        exact Or.inl ⟨e, next, rfl, hunsent⟩
      · rw [bind_of_error hsend]
        exact Or.inr (Or.inl ⟨messages, next, rfl, hsent, hinvoker⟩)
      · rw [bind_of_ok hsend]
        refine Or.inr (Or.inr ⟨_, _, messages, _, rfl, ⟨hsent.batch, hsent.sent⟩, rfl, ?_⟩)
        have hrecorded := SortedMap.get?_put_self next.game.invoker.active action.canonical
          ⟨[binding], none, next.game.markers⟩
        exact Option.ne_none_iff_exists'.mpr ⟨_, hrecorded⟩
  · rw [ensure_false hinactive]
    exact Or.inl ⟨_, _, rfl, if_neg hinactive, rfl, rfl⟩

/-- The invoker is as given. -/
def Keeps (invoker : GameInvoker) (world : Win32World) : Prop := world.game.invoker = invoker

/-- Where the method fails, the invoker is as given. -/
def KeepsOnError {α : Type} (invoker : GameInvoker) (result : Except GameInputError α)
    (world : Win32World) : Prop :=
  ∀ e, result = .error e → world.game.invoker = invoker

theorem pollModifiers_keeps (invoker : GameInvoker) :
    Ensures (Keeps invoker) (onGame (GameInvoker.pollModifiers platform))
      fun _ world => Keeps invoker world := by
  intro world hworld
  rcases GameInvoker.pollModifiers_cases platform world.game with ⟨_, _, hpoll⟩ | hpoll
  · unfold onGame
    rw [zoom_apply, hpoll]
    exact hworld
  · unfold onGame
    rw [zoom_apply, hpoll]
    exact hworld

theorem send_keeps (invoker : GameInvoker) (delivery : GameDelivery) :
    Ensures (Keeps invoker) (send win32 delivery) fun _ world => Keeps invoker world := by
  intro world hworld
  rw [send_apply]
  rcases Win32GameInput.sendBatch win32 delivery.messages world.adapter with ⟨_ | _, adapter⟩
  · exact hworld
  · exact hworld

variable {α : Type}

theorem Keeps.bind {β : Type} {invoker : GameInvoker} {x : Win32Method α} {f : α → Win32Method β}
    {Q : Except GameInputError β → Win32World → Prop}
    (hx : Ensures (Keeps invoker) x fun _ world => Keeps invoker world)
    (hf : ∀ a, Ensures (Keeps invoker) (f a) Q)
    (herror : ∀ e world, Keeps invoker world → Q (.error e) world) :
    Ensures (Keeps invoker) (x >>= f) Q := by
  refine Ensures.bind (R := fun _ => Keeps invoker) (fun world hworld => ?_) hf
  have hkept := hx world hworld
  dsimp only
  split
  · exact hkept
  · exact herror _ _ hkept

theorem require_keeps (invoker : GameInvoker) (value : Option α) (e : GameInputError) :
    Ensures (Keeps invoker) (require value e : Win32Method α)
      fun _ world => Keeps invoker world := by
  cases value with
  | none | some => exact fun _ hworld => hworld

theorem ofExcept_keeps (invoker : GameInvoker) (result : Except GameInputError α) :
    Ensures (Keeps invoker) (ofExcept id result : Win32Method α)
      fun _ world => Keeps invoker world := by
  cases result with
  | error | ok => exact fun _ hworld => hworld

theorem sendPress_keeps (invoker : GameInvoker) (binding : InputBind) :
    Ensures (Keeps invoker) (sendPress platform win32 binding)
      fun _ world => Keeps invoker world := by
  unfold sendPress
  refine Keeps.bind (pollModifiers_keeps invoker) (fun physical => ?_) fun _ _ h => h
  refine Keeps.bind (ofExcept_keeps invoker _) (fun messages => ?_) fun _ _ h => h
  refine Keeps.bind (send_keeps invoker _) (fun _ => ?_) fun _ _ h => h
  exact fun _ hworld => hworld

theorem release_keeps (platform : GamePlatform) (win32 : Win32) (action : GameBindId)
    (invoker : GameInvoker) :
    Ensures (Keeps invoker) (release platform win32 action) (KeepsOnError invoker) := by
  unfold release
  refine Keeps.bind (fun world hworld => hworld) (fun game => ?_) fun _ _ h _ _ => h
  refine Keeps.bind (require_keeps invoker _ _) (fun bindings => ?_) fun _ _ h _ _ => h
  refine Keeps.bind (pollModifiers_keeps invoker) (fun physical => ?_) fun _ _ h _ _ => h
  refine Keeps.bind (ofExcept_keeps invoker _) (fun messages => ?_) fun _ _ h _ _ => h
  refine Keeps.bind (send_keeps invoker _) (fun _ => ?_) fun _ _ h _ _ => h
  exact fun world hworld e he => by cases he

def Holds (action : GameBindId) (world : Win32World) : Prop :=
  world.game.invoker.active.get? action ≠ none

theorem recordRepeat_active (action : GameBindId) (binding : InputBind) {game : GameWorld}
    (h : game.invoker.active.get? action ≠ none) :
    (GameInvoker.recordRepeat action binding game).invoker.active.get? action ≠ none := by
  unfold GameInvoker.recordRepeat
  split
  · split
    · exact h
    · dsimp only [GameInvoker.setActive]
      rw [SortedMap.get?_put_self]
      exact Option.some_ne_none _
  next hnone => exact absurd hnone h

theorem pressRepeated_active (platform : GamePlatform) (win32 : Win32)
    (hactive : Holds action.canonical world) :
    Holds action.canonical (pressRepeated platform win32 action world).2 := by
  have hread : (onGame read : Win32Method GameWorld) world = (.ok world.game, world) := rfl
  unfold pressRepeated
  rw [bind_of_ok hread]
  cases hget : world.game.invoker.active.get? action.canonical with
  | none => exact absurd hget hactive
  | some active =>
    have hheld (other : Win32World) (hkept : Keeps world.game.invoker other) :
        Holds action.canonical other := by
      unfold Holds
      rw [show other.game.invoker = world.game.invoker from hkept]
      exact hactive
    have hensures : Ensures (Keeps world.game.invoker)
        (do
          let binding ← require (GameInvoker.boundNow world.game action.canonical) .unbound
          let messages ← sendPress platform win32 binding
          onGame (modify (GameInvoker.recordRepeat action.canonical binding))
          return ((⟨action.canonical, .pressed, messages.length, none⟩, ⟨active.marker⟩) :
            GameDispatch × GamePressToken))
        fun _ other => Holds action.canonical other := by
      refine Keeps.bind (require_keeps _ _ _) (fun binding => ?_) fun _ => hheld
      refine Keeps.bind (sendPress_keeps _ _) (fun messages => ?_) fun _ => hheld
      exact fun other hkept => recordRepeat_active action.canonical binding (hheld other hkept)
    exact hensures world rfl

theorem invoke_pressed (durationMillis nowMillis : Nat) {next : Win32World}
    {dispatch : GameDispatch} {token : GamePressToken}
    (hpressed : pressNewTracked platform win32 action world = (.ok (dispatch, token), next))
    (hactive : Holds dispatch.action next) :
    (∃ released, (invoke platform win32 action durationMillis nowMillis world).1 = .ok released) ∨
      Holds dispatch.action (invoke platform win32 action durationMillis nowMillis world).2 := by
  have hpress : press platform win32 action world = (.ok dispatch, next) := bind_of_ok hpressed _
  unfold invoke
  rw [bind_of_ok hpress]
  split
  · have hkeeps := release_keeps platform win32 dispatch.action next.game.invoker next rfl
    rcases hrelease : release platform win32 dispatch.action next with ⟨_ | released, _⟩
    · rw [hrelease] at hkeeps
      rw [bind_of_error hrelease]
      refine Or.inr ?_
      unfold Holds
      rw [hkeeps _ rfl]
      exact hactive
    · rw [bind_of_ok hrelease]
      exact Or.inl ⟨_, rfl⟩
  · exact Or.inl ⟨_, rfl⟩

theorem run_cases (platform : GamePlatform) (win32 : Win32) (call : PressCall)
    (world : Win32World) :
    (∃ e next, call.run platform win32 world = (.error e, next) ∧
      Unsent platform call.action world next) ∨
    (∃ messages next, call.run platform win32 world = (.error .sinkFailed, next) ∧
      Sent platform win32 call.action messages false world next ∧
      next.game.invoker = world.game.invoker) ∨
    (∃ messages answered next result, call.run platform win32 world = (result, next) ∧
      Sent platform win32 call.action messages true world answered ∧
      (result = .ok () ∨ next.game.invoker.active.get? call.action ≠ none)) ∨
    (∃ next result, call.run platform win32 world = (result, next) ∧
      pressBatch platform world.game call.action = none ∧
      next.game.invoker.active.get? call.action ≠ none) := by
  cases call with
  | press action =>
    dsimp only [PressCall.run, PressCall.action, press]
    rcases pressNewTracked_cases platform win32 action world with
      ⟨e, next, hrun, hunsent⟩ | ⟨messages, next, hrun, hsent, hinvoker⟩ |
      ⟨dispatch, token, messages, next, hrun, hsent, _, hactive⟩
    · rw [bind_of_error (bind_of_error hrun _)]
      exact Or.inl ⟨e, next, rfl, hunsent⟩
    · rw [bind_of_error (bind_of_error hrun _)]
      exact Or.inr (Or.inl ⟨messages, next, rfl, hsent, hinvoker⟩)
    · rw [bind_of_ok (bind_of_ok hrun _)]
      exact Or.inr (Or.inr (Or.inl ⟨messages, next, next, _, rfl, hsent, Or.inl rfl⟩))
  | pressRepeated action =>
    dsimp only [PressCall.run, PressCall.action]
    cases hget : world.game.invoker.active.get? action.canonical with
    | some =>
      have hactive : Holds action.canonical world := by
        rw [Holds, hget]
        exact Option.some_ne_none _
      have hafter := pressRepeated_active platform win32 hactive
      rcases hrun : pressRepeated platform win32 action world with ⟨result, next⟩
      rw [hrun] at hafter
      have hbatch : pressBatch platform world.game action.canonical = none := if_neg hactive
      cases result with
      | error =>
        rw [bind_of_error hrun]
        exact Or.inr (Or.inr (Or.inr ⟨next, _, rfl, hbatch, hafter⟩))
      | ok =>
        rw [bind_of_ok hrun]
        exact Or.inr (Or.inr (Or.inr ⟨next, _, rfl, hbatch, hafter⟩))
    | none =>
      have hnew : pressRepeated platform win32 action world =
          pressNewTracked platform win32 action.canonical world := by
        have hread : (onGame read : Win32Method GameWorld) world = (.ok world.game, world) := rfl
        unfold pressRepeated
        rw [bind_of_ok hread, hget]
      have hcases := pressNewTracked_cases platform win32 action.canonical world
      rw [← hnew, GameBindId.canonical_canonical] at hcases
      rcases hcases with ⟨e, next, hrun, hunsent⟩ | ⟨messages, next, hrun, hsent, hinvoker⟩ |
        ⟨dispatch, token, messages, next, hrun, hsent, _, hactive⟩
      · rw [bind_of_error hrun]
        exact Or.inl ⟨e, next, rfl, hunsent⟩
      · rw [bind_of_error hrun]
        exact Or.inr (Or.inl ⟨messages, next, rfl, hsent, hinvoker⟩)
      · rw [bind_of_ok hrun]
        exact Or.inr (Or.inr (Or.inl ⟨messages, next, next, _, rfl, hsent, Or.inl rfl⟩))
  | invoke action durationMillis nowMillis =>
    dsimp only [PressCall.run, PressCall.action, invoke, press]
    rcases pressNewTracked_cases platform win32 action world with
      ⟨e, next, hrun, hunsent⟩ | ⟨messages, next, hrun, hsent, hinvoker⟩ |
      ⟨dispatch, token, messages, next, hrun, hsent, haction, hactive⟩
    · rw [bind_of_error (bind_of_error (bind_of_error hrun _) _)]
      exact Or.inl ⟨e, next, rfl, hunsent⟩
    · rw [bind_of_error (bind_of_error (bind_of_error hrun _) _)]
      exact Or.inr (Or.inl ⟨messages, next, rfl, hsent, hinvoker⟩)
    · have hinvoke := invoke_pressed durationMillis nowMillis hrun
        (haction.symm ▸ hactive)
      rcases hended : invoke platform win32 action durationMillis nowMillis world with
        ⟨result, final⟩
      rw [hended, haction] at hinvoke
      refine Or.inr (Or.inr (Or.inl ⟨messages, next, final, ?_⟩))
      unfold invoke press at hended
      cases result with
      | error =>
        rw [bind_of_error hended]
        exact ⟨_, rfl, hsent, Or.inr (hinvoke.resolve_left nofun)⟩
      | ok =>
        rw [bind_of_ok hended]
        exact ⟨_, rfl, hsent, Or.inl rfl⟩

end Win32World

/-- The batch stops at a message that cannot be encoded. `asked` is the number of the first
question about the batch. -/
def Unencodable (win32 : Win32) (asked : Nat) (messages : List GameMessage) (sent : Nat) : Prop :=
  ∃ message, messages[sent]? = some message ∧ encodeMessage win32 (asked + 2 * sent) message = none

def Win32World.posted (world next : Win32World) : List WindowMessage :=
  next.adapter.posted.drop world.adapter.posted.length

/-- A call that failed and left its action inactive has left every key, button and modifier as it
was, and has posted nothing where a message could not be encoded. -/
def LeavesNothing (platform : GamePlatform) (win32 : Win32) (call : PressCall)
    (world : Win32World) (keys : GameKeys) : Prop :=
  ∀ e next, call.run platform win32 world = (.error e, next) →
    next.game.invoker.active.get? call.action = none →
      keysAfter keys (world.posted next) = keys ∧
      ∀ messages, pressBatch platform world.game call.action = some messages →
        Unencodable win32 (world.adapter.asked + 1) messages (world.posted next).length →
          world.posted next = []

/-- What goes out before the message at which the batch stops repeats what the game has, and nothing
goes out before one that cannot be encoded. -/
def StopsHarmlessly (platform : GamePlatform) (win32 : Win32) (action : GameBindId)
    (world : Win32World) (keys : GameKeys) : Prop :=
  ∀ messages hwnd, pressBatch platform world.game action = some messages →
    (Win32GameInput.liveWindow win32 world.adapter).1 = some hwnd →
      let sent := (outgoing win32 (world.adapter.asked + 1) messages).map Prod.fst
      sent.length < messages.length →
        (∀ message ∈ sent, Repeats keys message) ∧
          (Unencodable win32 (world.adapter.asked + 1) messages sent.length → sent = [])

variable {game : GameWorld}

theorem pressBatch_eq_some {platform : GamePlatform} {action : GameBindId}
    (h : pressBatch platform game action = some messages) :
    ∃ binding physical, pressMessages binding physical = .ok messages := by
  unfold pressBatch at h
  split at h
  · obtain ⟨binding, _, h⟩ := Option.bind_eq_some_iff.mp h
    split at h
    next physical _ =>
      cases hmessages : pressMessages binding physical with
      | error =>
        rw [hmessages] at h
        cases h
      | ok =>
        rw [hmessages] at h
        cases h
        exact ⟨binding, physical, hmessages⟩
    next => cases h
  · cases h

theorem pressBatch_inactive {platform : GamePlatform} {action : GameBindId}
    (h : pressBatch platform game action = some messages) :
    game.invoker.active.get? action = none := by
  unfold pressBatch at h
  split at h
  next hinactive => exact hinactive
  next => cases h

namespace Win32GameInput

variable {win32 : Win32} {adapter : Win32GameInput} {hwnd : BitVec 64}

theorem liveWindow_some (h : (liveWindow win32 adapter).1 = some hwnd) :
    liveWindow win32 adapter = (some hwnd, { adapter with asked := adapter.asked + 1 }) := by
  unfold liveWindow at h ⊢
  cases hactive : adapter.active with
  | none =>
    rw [hactive] at h
    cases h
  | some =>
    rw [hactive] at h
    dsimp only at h ⊢
    split at h
    next hwindow =>
      cases h
      rw [if_pos hwindow]
    next => cases h

theorem sendBatch_live (h : (liveWindow win32 adapter).1 = some hwnd)
    (messages : List GameMessage) :
    (sendBatch win32 messages adapter).2.posted = adapter.posted ++
        (outgoing win32 (adapter.asked + 1) messages).map (fun sent => wireMessage hwnd sent.2) ∧
      ((sendBatch win32 messages adapter).1 = true ↔
        (outgoing win32 (adapter.asked + 1) messages).length = messages.length) := by
  unfold sendBatch
  rw [liveWindow_some h]
  exact postAll_eq hwnd messages { adapter with asked := adapter.asked + 1 }

theorem sendBatch_dead (h : (liveWindow win32 adapter).1 = none) (messages : List GameMessage) :
    (sendBatch win32 messages adapter).2.posted = adapter.posted ∧
      (sendBatch win32 messages adapter).1 = false := by
  have hposted := @liveWindow_posted win32 adapter
  unfold sendBatch
  rcases hlive : liveWindow win32 adapter with ⟨_ | _, _⟩
  · rw [hlive] at hposted
    exact ⟨hposted, rfl⟩
  · rw [hlive] at h
    cases h

end Win32GameInput

variable {call : PressCall} {next : Win32World}

theorem leavesNothing_of_posted {platform : GamePlatform} {win32 : Win32} {world : Win32World}
    {result : Except GameInputError Unit} (hrun : call.run platform win32 world = (result, next))
    (hposted : next.adapter.posted = world.adapter.posted) :
    LeavesNothing platform win32 call world keys := by
  intro e other hother _
  rw [hrun] at hother
  cases hother
  have hnone : world.posted next = [] := by
    unfold Win32World.posted
    rw [hposted, List.drop_length]
  rw [hnone]
  exact ⟨rfl, fun _ _ _ => rfl⟩

theorem stopped_iff {platform : GamePlatform} {win32 : Win32} {world : Win32World}
    {e : GameInputError} {hwnd : BitVec 64}
    (hrun : call.run platform win32 world = (.error e, next))
    (hbatch : pressBatch platform world.game call.action = some messages)
    (hlive : (Win32GameInput.liveWindow win32 world.adapter).1 = some hwnd)
    (hstopped : (outgoing win32 (world.adapter.asked + 1) messages).length < messages.length)
    (hposted : next.adapter.posted = world.adapter.posted ++
      (outgoing win32 (world.adapter.asked + 1) messages).map fun sent => wireMessage hwnd sent.2)
    (hinactive : next.game.invoker.active.get? call.action = none) :
    LeavesNothing platform win32 call world keys ↔
      StopsHarmlessly platform win32 call.action world keys := by
  obtain ⟨_, _, hmessages⟩ := pressBatch_eq_some hbatch
  have hkeys := keysAfter_outgoing_iff hmessages hstopped hwnd keys
  have hwires : world.posted next =
      (outgoing win32 (world.adapter.asked + 1) messages).map fun sent =>
        wireMessage hwnd sent.2 := by
    unfold Win32World.posted
    rw [hposted, List.drop_left]
  constructor
  · intro h other window hother hwindow
    rw [hbatch] at hother
    cases hother
    obtain ⟨hsame, hencode⟩ := h e next hrun hinactive
    rw [hwires] at hsame hencode
    refine fun _ => ⟨hkeys.mp hsame, fun hrefused => ?_⟩
    have hempty := hencode messages hbatch (by simpa using hrefused)
    exact List.map_eq_nil_iff.mpr (List.map_eq_nil_iff.mp hempty)
  · intro h other final hother _
    rw [hrun] at hother
    cases hother
    obtain ⟨hrepeats, hencode⟩ := h messages hwnd hbatch hlive (by simpa using hstopped)
    rw [hwires]
    refine ⟨hkeys.mpr hrepeats, fun found hfound hrefused => ?_⟩
    rw [hbatch] at hfound
    cases hfound
    have hempty := hencode (by simpa using hrefused)
    exact List.map_eq_nil_iff.mpr (List.map_eq_nil_iff.mp hempty)

/-- A failed press leaves nothing down exactly where its batch stops harmlessly. -/
theorem failed_press_leaves_nothing_iff (platform : GamePlatform) (win32 : Win32)
    (call : PressCall) (world : Win32World) (keys : GameKeys) :
    LeavesNothing platform win32 call world keys ↔
      StopsHarmlessly platform win32 call.action world keys := by
  rcases Win32World.run_cases platform win32 call world with
    ⟨e, next, hrun, hunsent⟩ | ⟨messages, next, hrun, hsent, hinvoker⟩ |
    ⟨messages, answered, next, result, hrun, hsent, hdone⟩ | ⟨next, result, hrun, hbatch, hactive⟩
  · refine iff_of_true (leavesNothing_of_posted hrun (by rw [hunsent.adapter])) ?_
    intro messages hwnd hbatch
    rw [hunsent.batch] at hbatch
    cases hbatch
  · have hadapter : next.adapter = (Win32GameInput.sendBatch win32 messages world.adapter).2 := by
      rw [hsent.sent]
    cases hlive : (Win32GameInput.liveWindow win32 world.adapter).1 with
    | none =>
      obtain ⟨hposted, _⟩ := Win32GameInput.sendBatch_dead hlive messages
      refine iff_of_true (leavesNothing_of_posted hrun (hadapter ▸ hposted)) ?_
      intro _ hwnd _ hwindow
      rw [hlive] at hwindow
      cases hwindow
    | some =>
      obtain ⟨hposted, hanswer⟩ := Win32GameInput.sendBatch_live hlive messages
      rw [← hadapter] at hposted
      have hlt :=
        (Win32GameInput.outgoing_prefix win32 (world.adapter.asked + 1) messages).length_le
      rw [hsent.sent] at hanswer
      rw [List.length_map] at hlt
      have hstopped := Nat.lt_of_le_of_ne hlt fun heq => Bool.noConfusion (hanswer.mpr heq)
      exact stopped_iff hrun hsent.batch hlive hstopped hposted (by
        rw [hinvoker]
        exact pressBatch_inactive hsent.batch)
  · refine iff_of_true (fun e other hother hinactive => ?_) fun other hwnd hbatch hlive hlt => ?_
    · rw [hrun] at hother
      cases hother
      rcases hdone with hok | hactive
      · cases hok
      · exact absurd hinactive hactive
    · rw [hsent.batch] at hbatch
      cases hbatch
      obtain ⟨_, hanswer⟩ := Win32GameInput.sendBatch_live hlive messages
      rw [hsent.sent] at hanswer
      rw [List.length_map, hanswer.mp rfl] at hlt
      exact absurd hlt (Nat.lt_irrefl _)
  · refine iff_of_true (fun e other hother hinactive => ?_) fun other hwnd hother => ?_
    · rw [hrun] at hother
      cases hother
      exact absurd hinactive hactive
    · rw [hbatch] at hother
      cases hother

/-- A keyboard without a key for the scan code 3, and a message queue that refuses one post. -/
def fullQueue (refused : Nat) : Win32 where
  scanCodeOf virtualKey :=
    if virtualKey = 0x12 then 0x38 else if virtualKey = 0x11 then 0x1D else 0x2A
  virtualKeyOf scanCode := if scanCode = 0x03 then 0 else 0x31
  cursor _ := some (0, 0)
  isWindow _ _ := true
  posted number := number ≠ refused

def attachedWorld : Win32World := ⟨GameInvoker.new .withDefaults, ⟨some ⟨1, 7⟩, [], 0⟩⟩

/-- The press of an action whose binding has Alt and Shift, with no key of the user down. -/
def markerPress (refused : Nat) (action : GameBindId) : Except GameInputError Unit × Win32World :=
  (PressCall.press action).run ⟨fun _ => .returned .default, fun _ => .returned (.ok ())⟩
    (fullQueue refused) attachedWorld

theorem markerPress_failed :
    ∀ marker ∈ [markerPress 6 94, markerPress 0 95], marker.1 = .error .sinkFailed ∧
      keysAfter (fun _ => false) (attachedWorld.posted marker.2) (modifierKey .alt) = true ∧
      (marker.2.game.invoker.active.get? (PressCall.press 94).action).isNone = true := by
  decide +kernel

/-- The first marker's key is refused by the queue, the second marker's has no virtual key: both
times Alt stays down. -/
theorem modifiers_left_down :
    (∀ marker ∈ [markerPress 6 94, markerPress 0 95], marker.1 = .error .sinkFailed ∧
      keysAfter (fun _ => false) (attachedWorld.posted marker.2) (modifierKey .alt) = true) ∧
    ¬ LeavesNothing ⟨fun _ => .returned .default, fun _ => .returned (.ok ())⟩ (fullQueue 6)
      (.press 94) attachedWorld fun _ => false := by
  refine ⟨fun marker hmem => ⟨(markerPress_failed marker hmem).1,
    (markerPress_failed marker hmem).2.1⟩, fun hleaves => ?_⟩
  obtain ⟨hfailed, hdown, hnone⟩ := markerPress_failed _ List.mem_cons_self
  generalize hmarker : markerPress 6 94 = marker at hfailed hdown hnone
  obtain ⟨_, next⟩ := marker
  cases hfailed
  rw [Option.isNone_iff_eq_none] at hnone
  obtain ⟨hkeys, _⟩ := hleaves .sinkFailed next hmarker hnone
  rw [hkeys] at hdown
  cases hdown

end Nexus.WindowInput
