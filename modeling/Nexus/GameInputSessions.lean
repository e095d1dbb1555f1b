import Mathlib.Logic.Function.Basic
import Nexus.ThreadAffinity

namespace Nexus.GameWindows

inductive WindowAttachError where
  | invalidWindow
  | generationExhausted
  deriving DecidableEq

inductive SessionAttachError where
  | stopped
  | lifecycleExhausted
  deriving DecidableEq

structure RenderSessionIdentity where
  swapChainId : Nat
  generation : Nat
  deriving DecidableEq

structure WindowAttachment where
  generation : Nat
  hwnd : Nat
  deriving DecidableEq

/-- A lease carries the generation; the window is for the record. -/
abbrev GameWindowLease := WindowAttachment

structure WindowState where
  nextGeneration : Nat
  active : Option WindowAttachment
  deriving DecidableEq

/-- What becomes of one message of a batch. `live` is what `IsWindow` answers after a failure. -/
inductive PostOutcome where
  | unencoded
  | posted
  | refused (live : Bool)

namespace WindowState

def new : WindowState := ⟨0, none⟩

/-- `live` is what `IsWindow` answers. -/
def attach (hwnd : Nat) (live : Bool) :
    Fallible WindowState WindowAttachError GameWindowLease := fun state =>
  if hwnd = 0 ∨ live = false then (.error .invalidWindow, state)
  else match Overlay.checkedAdd state.nextGeneration with
    | none => (.error .generationExhausted, state)
    | some generation => (.ok ⟨generation, hwnd⟩, ⟨generation, some ⟨generation, hwnd⟩⟩)

def detach (generation : Nat) (state : WindowState) : WindowState :=
  if state.active.any (·.generation = generation) then { state with active := none } else state

/-- The loop of `send_batch`. -/
def postAll : List PostOutcome → WindowState → WindowState
  | [], state => state
  | .unencoded :: _, state => state
  | .posted :: outcomes, state => postAll outcomes state
  | .refused live :: _, state => if live then state else { state with active := none }

def send (live : Bool) (outcomes : List PostOutcome) (state : WindowState) : WindowState :=
  if state.active.isNone then state
  else if live then postAll outcomes state
  else { state with active := none }

end WindowState

structure ActiveGameWindow where
  identity : RenderSessionIdentity
  attachmentId : Nat
  window : GameWindowLease
  deriving DecidableEq

structure GameWindowState where
  nextAttachmentId : Nat
  stopped : Bool
  active : Option ActiveGameWindow
  deriving DecidableEq

structure GameInputSessionLease where
  identity : RenderSessionIdentity
  attachmentId : Nat
  deriving DecidableEq

def ActiveGameWindow.lease (active : ActiveGameWindow) : GameInputSessionLease :=
  ⟨active.identity, active.attachmentId⟩

namespace GameWindowState

def default : GameWindowState := ⟨0, false, none⟩

/-- The locked section of `GameWindowSessions::attach`, with the attachment that it replaced. -/
def attach (identity : RenderSessionIdentity) (window : GameWindowLease) :
    Fallible GameWindowState SessionAttachError (Option ActiveGameWindow × ActiveGameWindow) :=
  fun state =>
    if state.stopped then (.error .stopped, state)
    else match Overlay.checkedAdd state.nextAttachmentId with
      | none => (.error .lifecycleExhausted, state)
      | some attachmentId =>
        let attached : ActiveGameWindow := ⟨identity, attachmentId, window⟩
        (.ok (state.active, attached),
          { state with nextAttachmentId := attachmentId, active := some attached })

def stop (state : GameWindowState) : Option ActiveGameWindow × GameWindowState :=
  (state.active, { state with stopped := true, active := none })

/-- The locked section of `GameWindowSessions::detach`, with the attachment that it took. -/
def detach (lease : GameInputSessionLease) (state : GameWindowState) :
    Option ActiveGameWindow × GameWindowState :=
  match state.active with
  | some active =>
    if active.identity = lease.identity ∧ active.attachmentId = lease.attachmentId then
      (some active, { state with active := none })
    else (none, state)
  | none => (none, state)

end GameWindowState

/-- Where a call stands: between the two records, or with a window lease still to be dropped. -/
inductive Call where
  | selected (identity : RenderSessionIdentity) (window : GameWindowLease)
  | dropping (window : Option GameWindowLease) (result : Option GameInputSessionLease)
  deriving DecidableEq

def Call.window? : Call → Option GameWindowLease
  | .selected _ window => some window
  | .dropping window _ => window

/-- `RuntimeGameInput` with the calls of its threads and the leases that they returned. The last two
are for the record: every session attachment, and the generations whose window was found dead. -/
structure GameInputWorld where
  adapter : WindowState
  sessions : GameWindowState
  calls : Nat → Option Call
  leases : List GameInputSessionLease
  attached : List ActiveGameWindow
  dead : List Nat

inductive GameInputAction where
  | attachRenderSession (thread : Nat) (identity : RenderSessionIdentity) (hwnd : Nat) (live : Bool)
  | attachSession (thread : Nat)
  | dropLease (thread : Nat) (lease : GameInputSessionLease)
  | shutdown (thread : Nat)
  | dropWindow (thread : Nat)
  | send (live : Bool) (outcomes : List PostOutcome)

namespace GameInputWorld

def start : GameInputWorld := ⟨.new, .default, fun _ => none, [], [], []⟩

def setCall (thread : Nat) (call : Option Call) (world : GameInputWorld) : GameInputWorld :=
  { world with calls := Function.update world.calls thread call }

def Idle (world : GameInputWorld) : Prop := ∀ thread, world.calls thread = none

/-- `attach_render_session` up to the end of the adapter's locked section. -/
def attachRenderSession (thread : Nat) (identity : RenderSessionIdentity) (hwnd : Nat) (live : Bool)
    (world : GameInputWorld) : GameInputWorld :=
  match world.adapter.attach hwnd live with
  | (.error _, adapter) => { world with adapter }
  | (.ok window, adapter) =>
    setCall thread (some (.selected identity window)) { world with adapter }

/-- The sessions' locked section of `attach_render_session`. -/
def attachSession (thread : Nat) (identity : RenderSessionIdentity) (window : GameWindowLease)
    (world : GameInputWorld) : GameInputWorld :=
  match world.sessions.attach identity window with
  | (.error _, sessions) =>
    setCall thread (some (.dropping (some window) none)) { world with sessions }
  | (.ok (stale, attached), sessions) =>
    setCall thread (some (.dropping (stale.map (·.window)) (some attached.lease)))
      { world with sessions, attached := attached :: world.attached }

def dropLease (thread : Nat) (lease : GameInputSessionLease) (world : GameInputWorld) :
    GameInputWorld :=
  let (active, sessions) := world.sessions.detach lease
  setCall thread (some (.dropping (active.map (·.window)) none))
    { world with sessions, leases := world.leases.erase lease }

def shutdown (thread : Nat) (world : GameInputWorld) : GameInputWorld :=
  let (active, sessions) := world.sessions.stop
  setCall thread (some (.dropping (active.map (·.window)) none)) { world with sessions }

def dropWindow (thread : Nat) (window : Option GameWindowLease)
    (result : Option GameInputSessionLease) (world : GameInputWorld) : GameInputWorld :=
  setCall thread none { world with
    adapter := match window with
      | some window => world.adapter.detach window.generation
      | none => world.adapter
    leases := result.toList ++ world.leases }

def send (live : Bool) (outcomes : List PostOutcome) (world : GameInputWorld) : GameInputWorld :=
  let adapter := world.adapter.send live outcomes
  { world with
    adapter
    dead := if adapter.active.isNone then
        (world.adapter.active.map (·.generation)).toList ++ world.dead
      else world.dead }

def step (world : GameInputWorld) : GameInputAction → Option GameInputWorld
  | .attachRenderSession thread identity hwnd live =>
    match world.calls thread with
    | none => some (world.attachRenderSession thread identity hwnd live)
    | some _ => none
  | .attachSession thread =>
    match world.calls thread with
    | some (.selected identity window) => some (world.attachSession thread identity window)
    | _ => none
  | .dropLease thread lease =>
    match world.calls thread with
    | none => if lease ∈ world.leases then some (world.dropLease thread lease) else none
    | some _ => none
  | .shutdown thread =>
    match world.calls thread with
    | none => some (world.shutdown thread)
    | some _ => none
  | .dropWindow thread =>
    match world.calls thread with
    | some (.dropping window result) => some (world.dropWindow thread window result)
    | _ => none
  | .send live outcomes => some (world.send live outcomes)

end GameInputWorld

end Nexus.GameWindows
