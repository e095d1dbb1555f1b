import Mathlib.Logic.Function.Basic
import Nexus.EventLog
import Nexus.TextureHandles

namespace Nexus.RuntimeTextures

open StepRuns Textures

/-- A texture of one session's service. Equal records are one allocation. -/
structure TextureRecord where
  session : Nat
  texture : TextureHandle
  deriving DecidableEq

structure SessionLifecycle where
  accepting : Bool
  inFlight : Nat
  deriving DecidableEq

structure ActiveTextureSession where
  renderThread : Nat
  service : World
  lifecycle : SessionLifecycle

def maxInFlightOperations : Nat := 256

namespace SessionLifecycle

def tryEnter (lifecycle : SessionLifecycle) : Option SessionLifecycle :=
  if lifecycle.accepting ∧ lifecycle.inFlight < maxInFlightOperations then
    some { lifecycle with inFlight := lifecycle.inFlight + 1 }
  else none

def leave (lifecycle : SessionLifecycle) : SessionLifecycle :=
  { lifecycle with inFlight := lifecycle.inFlight - 1 }

def close (lifecycle : SessionLifecycle) : SessionLifecycle := { lifecycle with accepting := false }

end SessionLifecycle

/-- What a call asks of the coordinator. `get` and `load` are the facade's, `submit` is the inherent
`load` and `get_or_create`; `advance` is a call at the addon stage. -/
inductive TextureRequest where
  | get (identifier : String)
  | load (identifier : String) (options : LoadOptions) (hasCallback : Bool)
  | submit (identifier : String) (source : TextureSource) (options : LoadOptions)
      (hasCallback : Bool)
  | advance
  | cleanup (owner : Textures.OwnerGeneration) (order : List String)

inductive CallPhase where
  | calling
  | acquired (session : Nat)
  | entered (session : Nat)
  | serving (session number : Nat)
  | leaving (session : Nat) (next : CallPhase)
  | retaining (guard : Option Nat) (identifier : String) (record : TextureRecord)
  | missing (identifier : String)
  | left
  deriving DecidableEq

def CallPhase.session? : CallPhase → Option Nat
  | .acquired session | .entered session | .serving session _ | .leaving session _ => some session
  | .retaining guard _ _ => guard
  | .calling | .missing _ | .left => none

structure TextureCall where
  thread : Nat
  request : TextureRequest
  phase : CallPhase

/-- `retire_session`. The wait ends by itself when the operations have left or the time is up. -/
inductive Retirement where
  | closing (session : Nat)
  | draining (session : Nat)
  deriving DecidableEq

def Retirement.session : Retirement → Nat
  | .closing session | .draining session => session

/-- What the facade did, for the record only. -/
inductive FacadeEvent where
  | handed (identifier : String) (record : TextureRecord)
  | answered (identifier : String) (answer : Option TextureRecord)
  deriving DecidableEq

structure CoordinatorWorld where
  nextAttachmentId : Nat
  active : Option Nat
  retained : String → Option TextureRecord
  sessions : Nat → Option ActiveTextureSession
  calls : List TextureCall
  retiring : List Retirement
  log : List FacadeEvent

namespace CoordinatorWorld

def start : CoordinatorWorld := ⟨0, none, fun _ => none, fun _ => none, [], [], []⟩

def withSession (id : Nat) (session : ActiveTextureSession) (world : CoordinatorWorld) :
    CoordinatorWorld :=
  { world with sessions := Function.update world.sessions id (some session) }

def goOn (number : Nat) (call : TextureCall) (phase : CallPhase) (world : CoordinatorWorld) :
    CoordinatorWorld := { world with calls := world.calls.set number { call with phase } }

def record (events : List FacadeEvent) (world : CoordinatorWorld) : CoordinatorWorld :=
  { world with log := events ++ world.log }

/-- The locked section of `attach_service`. -/
def attachService (thread : Nat) (config : TextureConfig) (world : CoordinatorWorld) :
    CoordinatorWorld :=
  if world.nextAttachmentId + 1 = 2 ^ 64 then world
  else
    let attachmentId := world.nextAttachmentId + 1
    withSession attachmentId ⟨thread, World.new config, ⟨true, 0⟩⟩ { world with
      nextAttachmentId := attachmentId
      active := some attachmentId
      retiring := world.retiring ++ world.active.toList.map .closing }

/-- The locked section of `shutdown`. -/
def shutdown (world : CoordinatorWorld) : CoordinatorWorld :=
  { world with
    active := none
    retiring := world.retiring ++ world.active.toList.map .closing }

def detach (attachmentId : Nat) (world : CoordinatorWorld) : CoordinatorWorld :=
  if world.active = some attachmentId then shutdown world else world

/-- The start of `retire`. -/
def close (retirement : Nat) (world : CoordinatorWorld) : Option CoordinatorWorld :=
  match world.retiring[retirement]? with
  | some (.closing id) => (world.sessions id).map fun session =>
    withSession id { session with lifecycle := session.lifecycle.close }
      { world with retiring := world.retiring.set retirement (.draining id) }
  | _ => none

/-- The end of `retire_session`. -/
def retired (retirement : Nat) (world : CoordinatorWorld) : Option CoordinatorWorld :=
  match world.retiring[retirement]? with
  | some (.draining _) => some { world with retiring := world.retiring.eraseIdx retirement }
  | _ => none

def Referenced (id : Nat) (world : CoordinatorWorld) : Prop :=
  world.active = some id ∨ (∃ call ∈ world.calls, call.phase.session? = some id) ∨
    ∃ retirement ∈ world.retiring, retirement.session = id

instance (id : Nat) (world : CoordinatorWorld) : Decidable (world.Referenced id) :=
  inferInstanceAs (Decidable (_ ∨ _ ∨ _))

/-- The last reference to a session is gone, and its service goes with it. -/
def dropSession (id : Nat) (world : CoordinatorWorld) : Option CoordinatorWorld :=
  if world.Referenced id then none
  else some { world with sessions := Function.update world.sessions id none }

def refused : TextureRequest → CallPhase
  | .get identifier => .missing identifier
  | _ => .left

/-- The first half of `acquire`. -/
def acquire (number : Nat) (world : CoordinatorWorld) : Option CoordinatorWorld :=
  match world.calls[number]? with
  | some call =>
    match call.phase with
    | .calling =>
      match world.active with
      | some id => some (world.goOn number call (.acquired id))
      | none => some (world.goOn number call (refused call.request))
    | _ => none
  | none => none

/-- The second half of `acquire`. -/
def enter (number : Nat) (world : CoordinatorWorld) : Option CoordinatorWorld :=
  match world.calls[number]? with
  | some call =>
    match call.phase with
    | .acquired id => (world.sessions id).map fun session =>
      match session.lifecycle.tryEnter with
      | some lifecycle =>
        (world.goOn number call (.entered id)).withSession id { session with lifecycle }
      | none => world.goOn number call (refused call.request)
    | _ => none
  | none => none

def serviceAction (thread : Nat) (session : ActiveTextureSession) : TextureRequest → Option Action
  | .get _ => none
  | .load identifier options hasCallback => some (.loadWithSource identifier options hasCallback)
  | .submit identifier source options hasCallback => some (.load identifier source options hasCallback)
  | .advance => if session.renderThread = thread then some .advance else none
  | .cleanup owner order => some (.cleanup owner order)

/-- How a call leaves that has nothing to ask of the service, or only its registry. -/
def lookedUp (id : Nat) (session : ActiveTextureSession) : TextureRequest → CallPhase
  | .get identifier =>
    match session.service.state.registry.get? identifier with
    | some texture => .retaining none identifier ⟨id, texture⟩
    | none => .missing identifier
  | _ => .left

def serve (number : Nat) (world : CoordinatorWorld) : Option CoordinatorWorld :=
  match world.calls[number]? with
  | some call =>
    match call.phase with
    | .entered id => (world.sessions id).bind fun session =>
      match serviceAction call.thread session call.request with
      | some action => (Textures.step session.service action).map fun service =>
        (world.goOn number call (.serving id session.service.calls.length)).withSession id
          { session with service }
      | none => some (world.goOn number call (.leaving id (lookedUp id session call.request)))
    | _ => none
  | none => none

/-- The record that a call's service is about to pass to a callback. -/
def delivering (number : Nat) (world : CoordinatorWorld) : Option (String × TextureRecord) :=
  world.calls[number]?.bind fun call =>
    match call.phase with
    | .serving id inner => (world.sessions id).bind fun session =>
      (session.service.delivered inner).map fun delivery => (delivery.1, ⟨id, delivery.2⟩)
    | _ => none

def resume (number : Nat) (answers : Answers) (world : CoordinatorWorld) :
    Option CoordinatorWorld :=
  match world.calls[number]? with
  | some call =>
    match call.phase with
    | .serving id inner => (world.sessions id).bind fun session =>
      (Textures.step session.service (.resume inner answers)).map fun service =>
        (world.withSession id { session with service }).record
          ((world.delivering number).toList.map fun delivery => .handed delivery.1 delivery.2)
    | _ => none
  | none => none

def served (id : Nat) : TextureRequest → Outcome → CallPhase
  | .load identifier _ _, .loaded (.ok (.cached texture)) =>
    .retaining (some id) identifier ⟨id, texture⟩
  | _, _ => .leaving id .left

/-- The call of the service has returned, or its source has panicked. -/
def finish (number : Nat) (world : CoordinatorWorld) : Option CoordinatorWorld :=
  match world.calls[number]? with
  | some call =>
    match call.phase with
    | .serving id inner => (world.sessions id).bind fun session =>
      match session.service.calls[inner]? with
      | some (.returned outcome) => some (world.goOn number call (served id call.request outcome))
      | some (.unwound _ _) => some (world.goOn number call (.leaving id .left))
      | _ => none
    | _ => none
  | none => none

def leave (number : Nat) (world : CoordinatorWorld) : Option CoordinatorWorld :=
  match world.calls[number]? with
  | some call =>
    match call.phase with
    | .leaving id next => (world.sessions id).map fun session =>
      (world.goOn number call next).withSession id
        { session with lifecycle := session.lifecycle.leave }
    | _ => none
  | none => none

/-- Keeps one record alive for the process. The first handle seen for an identifier wins. -/
def keep (identifier : String) (record : TextureRecord) (retained : String → Option TextureRecord) :
    String → Option TextureRecord :=
  if (retained identifier).isSome then retained
  else Function.update retained identifier (some record)

def handing (identifier : String) (record : TextureRecord) : Option Nat → List FacadeEvent
  | none => [.answered identifier (some record), .handed identifier record]
  | some _ => [.handed identifier record]

/-- How a call goes on that retained its record. Only `load` still holds its guard there. -/
def kept : Option Nat → CallPhase
  | none => .left
  | some id => .leaving id .left

def retain (number : Nat) (world : CoordinatorWorld) : Option CoordinatorWorld :=
  match world.calls[number]? with
  | some call =>
    match call.phase with
    | .retaining guard identifier record =>
      some ((goOn number call (kept guard)
        { world with retained := keep identifier record world.retained }).record
          (handing identifier record guard))
    | _ => none
  | none => none

def lookup (number : Nat) (world : CoordinatorWorld) : Option CoordinatorWorld :=
  match world.calls[number]? with
  | some call =>
    match call.phase with
    | .missing identifier =>
      some ((world.goOn number call .left).record
        [.answered identifier (world.retained identifier)])
    | _ => none
  | none => none

def work (id : Nat) (action : Action) (world : CoordinatorWorld) : Option CoordinatorWorld :=
  (world.sessions id).bind fun session =>
    (Textures.step session.service action).map fun service =>
      world.withSession id { session with service }

end CoordinatorWorld

inductive CoordinatorAction where
  | attach (thread : Nat) (config : TextureConfig)
  | detach (attachmentId : Nat)
  | shutdown
  | close (retirement : Nat)
  | retired (retirement : Nat)
  | dropSession (id : Nat)
  | call (thread : Nat) (request : TextureRequest)
  | acquire (number : Nat)
  | enter (number : Nat)
  | serve (number : Nat)
  | resume (number : Nat) (answers : Answers)
  | finish (number : Nat)
  | leave (number : Nat)
  | retain (number : Nat)
  | lookup (number : Nat)
  | decode (id : Nat) (file : Option (List UInt8)) (decoded : Option DecodedImage)
  | download (id : Nat) (fetched : Option (List UInt8)) (decoded : Option DecodedImage)

namespace CoordinatorWorld

def step (world : CoordinatorWorld) : CoordinatorAction → Option CoordinatorWorld
  | .attach thread config => some (world.attachService thread config)
  | .detach attachmentId => some (world.detach attachmentId)
  | .shutdown => some world.shutdown
  | .close retirement => world.close retirement
  | .retired retirement => world.retired retirement
  | .dropSession id => world.dropSession id
  | .call thread request =>
    some { world with calls := world.calls ++ [⟨thread, request, .calling⟩] }
  | .acquire number => world.acquire number
  | .enter number => world.enter number
  | .serve number => world.serve number
  | .resume number answers => world.resume number answers
  | .finish number => world.finish number
  | .leave number => world.leave number
  | .retain number => world.retain number
  | .lookup number => world.lookup number
  | .decode id file decoded => world.work id (.decode file decoded)
  | .download id fetched decoded => world.work id (.download fetched decoded)

end CoordinatorWorld

end Nexus.RuntimeTextures
