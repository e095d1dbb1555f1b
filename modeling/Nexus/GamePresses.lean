import Nexus.GameInvokerMoves
import Nexus.GameMessages

namespace Nexus.WindowInput

open Fallible

structure Win32World where
  game : GameWorld
  adapter : Win32GameInput

abbrev Win32Method := Fallible Win32World GameInputError

namespace Win32World

def setGame (game : GameWorld) (world : Win32World) : Win32World := { world with game }

section Methods

variable (platform : GamePlatform) (win32 : Win32)

def onGame {α : Type} (method : GameMethod α) : Win32Method α := zoom game setGame method

/-- The sink is the adapter, and the one of the platform is not asked. -/
def send (delivery : GameDelivery) : Win32Method Unit := fun world =>
  match Win32GameInput.sendBatch win32 delivery.messages world.adapter with
  | (true, adapter) => (.ok (), ⟨{ world.game with
      batches := world.game.batches + 1
      delivered := world.game.delivered ++ [delivery] }, adapter⟩)
  | (false, adapter) =>
    (.error .sinkFailed, ⟨{ world.game with batches := world.game.batches + 1 }, adapter⟩)

def sendPress (binding : InputBind) : Win32Method (List GameMessage) := do
  let physical ← onGame (GameInvoker.pollModifiers platform)
  let messages ← ofExcept id (pressMessages binding physical)
  send win32 (.press binding messages)
  return messages

def pressNewTracked (action : GameBindId) : Win32Method (GameDispatch × GamePressToken) := do
  let action := action.canonical
  let game ← onGame read
  ensure (game.invoker.active.get? action = none) .alreadyPressed
  let binding ← require (GameInvoker.boundNow game action) .unbound
  let messages ← sendPress platform win32 binding
  let game ← onGame read
  onGame (modify (GameInvoker.recordNew action binding))
  return (⟨action, .pressed, messages.length, none⟩, ⟨game.markers⟩)

def press (action : GameBindId) : Win32Method GameDispatch := do
  let (dispatch, _) ← pressNewTracked platform win32 action
  return dispatch

def pressRepeated (action : GameBindId) : Win32Method (GameDispatch × GamePressToken) := do
  let action := action.canonical
  let game ← onGame read
  match game.invoker.active.get? action with
  | some active =>
    let binding ← require (GameInvoker.boundNow game action) .unbound
    let messages ← sendPress platform win32 binding
    onGame (modify (GameInvoker.recordRepeat action binding))
    return (⟨action, .pressed, messages.length, none⟩, ⟨active.marker⟩)
  | none => pressNewTracked platform win32 action

def release (action : GameBindId) : Win32Method GameDispatch := do
  let action := action.canonical
  let game ← onGame read
  let bindings ← require (GameInvoker.bindingsToRelease game action) .unbound
  let physical ← onGame (GameInvoker.pollModifiers platform)
  let messages ← ofExcept id (releaseEach physical bindings.reverse)
  send win32 (.release physical messages)
  onGame (modify fun game => GameInvoker.setActive (game.invoker.active.erase action) game)
  return ⟨action, .released, messages.length, none⟩

def invoke (action : GameBindId) (durationMillis nowMillis : Nat) : Win32Method GameDispatch := do
  let pressed ← press platform win32 action
  if durationMillis = 0 then
    let released ← release platform win32 pressed.action
    return ⟨pressed.action, .released, pressed.messageCount + released.messageCount, none⟩
  else
    let due := GameInvoker.saturatingAdd64 nowMillis durationMillis
    onGame (modify (GameInvoker.schedule pressed.action due))
    return ⟨pressed.action, .scheduled, pressed.messageCount, some due⟩

end Methods

end Win32World

inductive PressCall where
  | press (action : GameBindId)
  | pressRepeated (action : GameBindId)
  | invoke (action : GameBindId) (durationMillis nowMillis : Nat)

namespace PressCall

def action : PressCall → GameBindId
  | .press action | .pressRepeated action | .invoke action _ _ => action.canonical

def run (platform : GamePlatform) (win32 : Win32) : PressCall → Win32Method Unit
  | .press action => do
    let _ ← Win32World.press platform win32 action
    return ()
  | .pressRepeated action => do
    let _ ← Win32World.pressRepeated platform win32 action
    return ()
  | .invoke action durationMillis nowMillis => do
    let _ ← Win32World.invoke platform win32 action durationMillis nowMillis
    return ()

end PressCall

namespace Win32World

theorem send_apply (win32 : Win32) (delivery : GameDelivery) (world : Win32World) :
    send win32 delivery world =
      match Win32GameInput.sendBatch win32 delivery.messages world.adapter with
      | (true, adapter) => (.ok (), ⟨{ world.game with
          batches := world.game.batches + 1
          delivered := world.game.delivered ++ [delivery] }, adapter⟩)
      | (false, adapter) =>
        (.error .sinkFailed, ⟨{ world.game with batches := world.game.batches + 1 }, adapter⟩) :=
  rfl

/-! The machine over the adapter is the machine over a sink that answers as the adapter does. -/

/-- Some answers of the sink to the batches of the call make the other method do the same. -/
def Simulated {α : Type} (x : Win32Method α) (y : (Nat → Bool) → GameMethod α) : Prop :=
  ∀ world, world.game.batches ≤ (x world).2.game.batches ∧
    ∃ answers : Nat → Bool, ∀ given : Nat → Bool,
      (∀ number, world.game.batches ≤ number → number < (x world).2.game.batches →
        given number = answers number) →
      y given world.game = ((x world).1, (x world).2.game)

theorem Simulated.bind {α β : Type} {x : Win32Method α} {f : α → Win32Method β}
    {y : (Nat → Bool) → GameMethod α} {g : (Nat → Bool) → α → GameMethod β} (hx : Simulated x y)
    (hf : ∀ a, Simulated (f a) fun given => g given a) :
    Simulated (x >>= f) fun given => y given >>= g given := by
  intro world
  obtain ⟨hle, first, hfirst⟩ := hx world
  rcases hrun : x world with ⟨_ | a, middle⟩
  · rw [hrun] at hle hfirst
    rw [bind_of_error hrun]
    exact ⟨hle, first, fun given hgiven => bind_of_error (hfirst given hgiven) _⟩
  · rw [hrun] at hle hfirst
    obtain ⟨hnext, second, hsecond⟩ := hf a middle
    rw [bind_of_ok hrun]
    refine ⟨Nat.le_trans hle hnext,
      fun number => if number < middle.game.batches then first number else second number,
      fun given hgiven => ?_⟩
    have hbefore := hfirst given fun number hfrom hto =>
      (hgiven number hfrom (Nat.lt_of_lt_of_le hto hnext)).trans (if_pos hto)
    have hafter := hsecond given fun number hfrom hto =>
      (hgiven number (Nat.le_trans hle hfrom) hto).trans (if_neg (Nat.not_lt.mpr hfrom))
    exact (bind_of_ok hbefore _).trans hafter

theorem Simulated.quiet {α : Type} {method : GameMethod α}
    (h : ∀ game, (method game).2.batches = game.batches) :
    Simulated (onGame method) fun _ => method :=
  fun world => ⟨Nat.le_of_eq (h world.game).symm, fun _ => true, fun _ _ => rfl⟩

theorem Simulated.pure {α : Type} (a : α) : Simulated (Pure.pure a) fun _ => Pure.pure a :=
  fun _ => ⟨Nat.le_refl _, fun _ => true, fun _ _ => rfl⟩

theorem Simulated.fail {α : Type} (e : GameInputError) :
    Simulated (Fallible.fail e : Win32Method α) fun _ => Fallible.fail e :=
  fun _ => ⟨Nat.le_refl _, fun _ => true, fun _ _ => rfl⟩

theorem Simulated.require {α : Type} (value : Option α) (e : GameInputError) :
    Simulated (Fallible.require value e) fun _ => Fallible.require value e := by
  cases value with
  | none => exact Simulated.fail e
  | some value => exact Simulated.pure value

theorem Simulated.ensure (p : Prop) [Decidable p] (e : GameInputError) :
    Simulated (Fallible.ensure p e) fun _ => Fallible.ensure p e := by
  unfold Fallible.ensure
  split
  · exact Simulated.pure ()
  · exact Simulated.fail e

theorem Simulated.ofExcept {α : Type} (result : Except GameInputError α) :
    Simulated (Fallible.ofExcept id result) fun _ => Fallible.ofExcept id result := by
  cases result with
  | error e => exact Simulated.fail e
  | ok value => exact Simulated.pure value

end Win32World

namespace SendingCall

open Win32World

end SendingCall

end Nexus.WindowInput
