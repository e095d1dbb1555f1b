import Nexus.FontDispatches

namespace Nexus.FontNotifications

structure SubscriptionKey where
  owner : OwnerToken
  identifier : String
  callback : Nat
  deriving DecidableEq

structure SubscriptionReceipts where
  subscriptions : List Nat
  publication : Option Nat
  deriving DecidableEq

abbrev SubscriptionMap := List (SubscriptionKey × SubscriptionReceipts)

namespace SubscriptionMap

def receipts (key : SubscriptionKey) (map : SubscriptionMap) : SubscriptionReceipts :=
  (map.lookup key).getD ⟨[], none⟩

def remove (key : SubscriptionKey) (map : SubscriptionMap) : SubscriptionMap :=
  map.filter fun entry => entry.1 ≠ key

/-- `entry(key).or_default()`, extended by the subscriptions, with the callback as its publication. -/
def insert (key : SubscriptionKey) (subscriptions : List Nat) (publication : Nat)
    (map : SubscriptionMap) : SubscriptionMap :=
  (key, ⟨(map.receipts key).subscriptions ++ subscriptions, some publication⟩) :: map.remove key

def forget (owner : OwnerToken) (map : SubscriptionMap) : SubscriptionMap :=
  map.filter fun entry => entry.1.owner ≠ owner

def publications (owner : OwnerToken) (map : SubscriptionMap) : List Nat :=
  (map.filter fun entry => entry.1.owner = owner).filterMap (·.2.publication)

end SubscriptionMap

/-- A native callback made for a call. `subscribed` while the service holds it. -/
structure FontPublication where
  key : SubscriptionKey
  subscription : Option Nat
  subscribed : Bool
  native : NativeFontCallback

/-- Where a thread stands in a call of the font API. A callback is named by its place. -/
inductive FontCall where
  | idle
  | serving (publication : Nat) (required : Bool)
  | accepted (publication : Nat) (subscription : Option Nat) (required : Bool)
  | recorded (publication : Nat)
  | rollingBack (owner : OwnerToken)
  | forgetting (owner : OwnerToken)
  | entering (publication : Nat) (subscriptions : List Nat)
  | releasing (publication : Nat) (subscriptions rejected : List Nat)
  | restoring (publication : Nat) (rejected : List Nat)
  | fencing (owner : OwnerToken) (accepted : Nat) (publications : List Nat)
  | cleaned (owner : OwnerToken) (accepted : Nat)
  deriving DecidableEq

/-- A cleanup that has returned: how many callbacks there were when it was called, and what they had
passed on when it returned. -/
structure Fence where
  owner : OwnerToken
  accepted : Nat
  started : Nat → List PendingFontCallback

structure FontApi where
  subscriptions : SubscriptionMap
  publications : List FontPublication
  gates : OwnerToken → CallbackGate
  calls : Nat → FontCall
  fences : List Fence

/-- `required` marks the calls that must get a subscription; the booleans are answers of the service
and of the caller check. -/
inductive FontApiStep where
  | subscribe (thread : Nat) (key : SubscriptionKey) (required : Bool)
  | accept (thread : Nat) (subscription : Option Nat)
  | reject (thread : Nat)
  | record (thread : Nat)
  | validate (thread : Nat) (valid : Bool)
  | registrationFails (thread : Nat) (owner : OwnerToken)
  | rollback (thread : Nat) (cleaned : Bool)
  | forget (thread : Nat)
  | release (thread : Nat) (key : SubscriptionKey)
  | enterRelease (thread : Nat)
  | releaseOne (thread : Nat) (released : Bool)
  | releaseEnd (thread : Nat)
  | restore (thread : Nat)
  | cleanupOwnerCallbacks (thread : Nat) (owner : OwnerToken)
  | abortNext (thread : Nat)
  | cleanService (thread : Nat) (cleaned : Bool)
  | cleanupReturn (thread : Nat)
  | notify (publication : Nat) (identifier : String) (font : Option FontHandle)
  | dispatch (publication : Nat) (action : FontStep)
  | closeGate (owner : OwnerToken)
  deriving DecidableEq

namespace FontApi

def new : FontApi := ⟨[], [], fun _ => .opened, fun _ => .idle, []⟩

def setCall (thread : Nat) (call : FontCall) (api : FontApi) : FontApi :=
  { api with calls := Function.update api.calls thread call }

def runNative (index : Nat) (action : FontStep) (api : FontApi) : Option FontApi :=
  match api.publications[index]? with
  | none => none
  | some publication =>
    (NativeFontCallback.step
      { publication.native with gate := api.gates publication.key.owner } action).map
      fun native => { api with
        publications := api.publications.set index { publication with native := native }
        gates := Function.update api.gates publication.key.owner native.gate }

def unsubscribe (picked : FontPublication → Bool) (api : FontApi) : FontApi := { api with
  publications := api.publications.map fun publication =>
    if picked publication then { publication with subscribed := false } else publication }

def subscribe (thread : Nat) (key : SubscriptionKey) (required : Bool) (api : FontApi) : FontApi :=
  { api.setCall thread (.serving api.publications.length required) with
    publications := api.publications ++ [⟨key, none, true, .new⟩] }

def accept (thread index : Nat) (required : Bool) (subscription : Option Nat) (api : FontApi) :
    FontApi :=
  { api.setCall thread (.accepted index subscription required) with
    publications := api.publications.modify index fun publication => { publication with
      subscription := subscription
      subscribed := publication.subscribed && subscription.isSome } }

def reject (thread index : Nat) (api : FontApi) : FontApi :=
  { api.setCall thread .idle with
    publications := api.publications.modify index fun publication =>
      { publication with subscribed := false } }

def record (thread index : Nat) (subscription : Option Nat) (required : Bool) (api : FontApi) :
    Option FontApi :=
  match api.publications[index]?, subscription with
  | some publication, some subscription => some { api.setCall thread (.recorded index) with
    subscriptions := api.subscriptions.insert publication.key [subscription] index }
  | some publication, none =>
    if required then
      (api.runNative index .abort).map (·.setCall thread (.rollingBack publication.key.owner))
    else some (api.setCall thread (.recorded index))
  | none, _ => none

def validate (thread index : Nat) (valid : Bool) (api : FontApi) : Option FontApi :=
  match api.publications[index]? with
  | none => none
  | some publication =>
    if valid then (api.runNative index .publish).map (·.setCall thread .idle)
    else (api.runNative index .abort).map (·.setCall thread (.rollingBack publication.key.owner))

/-- The callback made for a release is its own; nobody subscribes it. -/
def release (thread : Nat) (key : SubscriptionKey) (api : FontApi) : FontApi :=
  let subscriptions := (api.subscriptions.receipts key).subscriptions
  { api.setCall thread
      (if subscriptions = [] then .idle else .entering api.publications.length subscriptions) with
    subscriptions := api.subscriptions.remove key
    publications := api.publications ++ [⟨key, none, false, .new⟩] }

def accepting (index : Nat) (api : FontApi) : Bool :=
  api.publications[index]?.any fun publication => (api.gates publication.key.owner).accepting

def releaseOne (thread index : Nat) (subscriptions rejected : List Nat) (released : Bool)
    (api : FontApi) : Option FontApi :=
  match subscriptions with
  | [] => none
  | subscription :: rest => some
    (if released then (api.unsubscribe fun publication =>
        publication.subscription = some subscription).setCall thread (.releasing index rest rejected)
      else api.setCall thread (.releasing index rest (rejected ++ [subscription])))

def restore (thread index : Nat) (rejected : List Nat) (api : FontApi) : Option FontApi :=
  api.publications[index]?.map fun publication => { api.setCall thread .idle with
    subscriptions := api.subscriptions.insert publication.key rejected index }

def cleanupOwnerCallbacks (thread : Nat) (owner : OwnerToken) (api : FontApi) : FontApi :=
  { api.setCall thread
      (.fencing owner api.publications.length (api.subscriptions.publications owner)) with
    subscriptions := api.subscriptions.forget owner }

def started (api : FontApi) (index : Nat) : List PendingFontCallback :=
  match api.publications[index]? with
  | some publication => publication.native.started
  | none => []

def step (api : FontApi) : FontApiStep → Option FontApi
  | .subscribe thread key required => match api.calls thread with
    | .idle => some (api.subscribe thread key required)
    | _ => none
  | .accept thread subscription => match api.calls thread with
    | .serving index required => some (api.accept thread index required subscription)
    | _ => none
  | .reject thread => match api.calls thread with
    | .serving index _ => some (api.reject thread index)
    | _ => none
  | .record thread => match api.calls thread with
    | .accepted index subscription required => api.record thread index subscription required
    | _ => none
  | .validate thread valid => match api.calls thread with
    | .recorded index => api.validate thread index valid
    | _ => none
  | .registrationFails thread owner => match api.calls thread with
    | .idle => some (api.setCall thread (.rollingBack owner))
    | _ => none
  | .rollback thread cleaned => match api.calls thread with
    | .rollingBack owner => some ((if cleaned then api.unsubscribe (·.key.owner = owner)
        else api).setCall thread (.forgetting owner))
    | _ => none
  | .forget thread => match api.calls thread with
    | .forgetting owner => some
        { api.setCall thread .idle with subscriptions := api.subscriptions.forget owner }
    | _ => none
  | .release thread key => match api.calls thread with
    | .idle => some (api.release thread key)
    | _ => none
  | .enterRelease thread => match api.calls thread with
    | .entering index subscriptions => some (api.setCall thread
        (if api.accepting index then .releasing index subscriptions [] else .idle))
    | _ => none
  | .releaseOne thread released => match api.calls thread with
    | .releasing index subscriptions rejected =>
      api.releaseOne thread index subscriptions rejected released
    | _ => none
  | .releaseEnd thread => match api.calls thread with
    | .releasing index [] rejected => some (api.setCall thread
        (if rejected ≠ [] ∧ api.accepting index then .restoring index rejected else .idle))
    | _ => none
  | .restore thread => match api.calls thread with
    | .restoring index rejected => api.restore thread index rejected
    | _ => none
  | .cleanupOwnerCallbacks thread owner => match api.calls thread with
    | .idle => some (api.cleanupOwnerCallbacks thread owner)
    | _ => none
  | .abortNext thread => match api.calls thread with
    | .fencing owner accepted (index :: rest) =>
      (api.runNative index .abort).map (·.setCall thread (.fencing owner accepted rest))
    | _ => none
  | .cleanService thread cleaned => match api.calls thread with
    | .fencing owner accepted [] => some ((if cleaned then api.unsubscribe (·.key.owner = owner)
        else api).setCall thread (.cleaned owner accepted))
    | _ => none
  | .cleanupReturn thread => match api.calls thread with
    | .cleaned owner accepted => some { api.setCall thread .idle with
        fences := api.fences ++ [⟨owner, accepted, api.started⟩] }
    | _ => none
  | .notify index identifier font =>
    if api.publications[index]?.any (·.subscribed) then
      api.runNative index (.enqueue identifier font)
    else none
  | .dispatch index action => if action.drains then api.runNative index action else none
  | .closeGate owner => some
      { api with gates := Function.update api.gates owner (api.gates owner).close }

end FontApi

end Nexus.FontNotifications
