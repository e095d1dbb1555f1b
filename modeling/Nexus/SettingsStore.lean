import Nexus.Fallible
import Nexus.Json
import Nexus.StepRuns

namespace Nexus.Settings

inductive SettingsError where
  | read
  | parse (category : String) (line column : Nat)
  | rootIsNotObject
  | valueTypeMismatch
  | valueEncoding
  | serialize
  | createTemporary
  | writeTemporary
  | replace
  deriving DecidableEq

structure DocumentText where
  print : JsonValue → List UInt8
  parse : List UInt8 → Except SettingsError JsonValue

/-- The settings file: none, one that another program left, or a document that the store wrote. -/
inductive SettingsFile where
  | missing
  | external (bytes : List UInt8)
  | written (document : JsonValue)

def SettingsFile.bytes (text : DocumentText) : SettingsFile → Option (List UInt8)
  | .missing => none
  | .external bytes => some bytes
  | .written document => some (text.print document)

structure Subscriber where
  id : Nat
  callback : Nat
  deriving DecidableEq

/-- The state under the store's lock, with the file that it is saved to. -/
structure SettingsStore where
  value : JsonValue
  nextSubscription : Nat
  callbacks : String → List Subscriber
  nextCallback : Nat
  file : SettingsFile

def entry (document : JsonValue) (key : String) : Option JsonValue :=
  document.asObject.bind fun members => members.get key

def objectRefOrPromoteNull : Fallible JsonValue SettingsError JsonMembers := fun value =>
  let promoted := if value.isNull then .object [] else value
  match promoted.asObject with
  | some members => (.ok members, promoted)
  | none => (.error .rootIsNotObject, promoted)

namespace SettingsStore

/-- `persist_value`. The write replaces the whole file or fails and leaves it. -/
def persist (write : Except SettingsError Unit) (store : SettingsStore) : SettingsStore :=
  match write with
  | .ok () => { store with file := .written store.value }
  | .error _ => store

def callbacksFor (store : SettingsStore) (key : String) : List Subscriber := store.callbacks key

def current (store : SettingsStore) (key : String) : Option JsonValue :=
  (entry store.value key).filter fun value => !value.isNull

def set (key : String) (encoded : Option JsonValue) (write : Except SettingsError Unit) :
    Fallible SettingsStore SettingsError JsonValue := fun store =>
  match encoded with
  | none => (.error .valueEncoding, store)
  | some value =>
    match objectRefOrPromoteNull store.value with
    | (.error error, document) => (.error error, { store with value := document })
    | (.ok members, _) =>
      (.ok value, persist write { store with value := .object (members.insert key value) })

/-- `get_or_insert` under the lock. `none` is a value that was there. -/
def getOrInsert (key : String) (encoded : Option JsonValue) (accepts : JsonValue → Bool)
    (write : Except SettingsError Unit) : Fallible SettingsStore SettingsError (Option JsonValue) :=
  fun store =>
    match encoded with
    | none => (.error .valueEncoding, store)
    | some value =>
      match objectRefOrPromoteNull store.value with
      | (.error error, document) => (.error error, { store with value := document })
      | (.ok members, document) =>
        match (members.get key).filter fun existing => !existing.isNull with
        | some existing =>
          (if accepts existing then .ok none else .error .valueTypeMismatch,
            { store with value := document })
        | none =>
          (.ok (some value), persist write { store with value := .object (members.insert key value) })

/-- `remove` under the lock. The call then returns what the write returned. -/
def remove (key : String) (write : Except SettingsError Unit) :
    Fallible SettingsStore SettingsError Bool := fun store =>
  match objectRefOrPromoteNull store.value with
  | (.error error, document) => (.error error, { store with value := document })
  | (.ok members, _) =>
    let next := persist write { store with value := .object (members.remove key) }
    (.ok (members.get key).isSome, { next with callbacks := Function.update next.callbacks key [] })

/-- `subscribe_arc` under the lock. A subscription number that is used again replaces the old one. -/
def subscribe (key : String) (store : SettingsStore) : Subscriber × SettingsStore :=
  let subscriber : Subscriber := ⟨store.nextSubscription, store.nextCallback⟩
  let others := (store.callbacks key).filter fun other => other.id ≠ subscriber.id
  (subscriber, { store with
    nextSubscription := min (store.nextSubscription + 1) (2 ^ 64 - 1)
    nextCallback := store.nextCallback + 1
    callbacks := Function.update store.callbacks key (others ++ [subscriber]) })

def unsubscribe (key : String) (id : Nat) (store : SettingsStore) : SettingsStore :=
  let kept := (store.callbacks key).filter fun other => other.id ≠ id
  { store with callbacks := Function.update store.callbacks key kept }

end SettingsStore

structure NotificationReport where
  attempted : Nat
  panicked : Nat
  deriving DecidableEq

structure Notification where
  id : Nat
  value : JsonValue
  pending : List Subscriber
  running : Bool
  report : NotificationReport
  persistence : Except SettingsError Unit

inductive SettingsEvent where
  | called (id : Nat)
  | removed (subscriber : Subscriber)
  | entered (id : Nat) (subscriber : Subscriber) (value : JsonValue)
  | returned (id : Nat) (result : Except SettingsError NotificationReport)

/-- The store with the calls of all threads: the documents that loads have read and not put in place
yet, and the deliveries. `settled` is what the last update of a key left in memory and in the file,
where that update was saved. -/
structure SettingsWorld where
  store : SettingsStore
  loads : List JsonValue
  calls : List Notification
  nextCall : Nat
  settled : String → Option (Option JsonValue)
  log : List SettingsEvent

inductive SettingsAction where
  | load (fault : Option SettingsError)
  | putInPlace (index : Nat)
  | save (write : Except SettingsError Unit)
  | set (key : String) (encoded : Option JsonValue) (write : Except SettingsError Unit)
  | getOrInsert (key : String) (encoded : Option JsonValue) (accepts : JsonValue → Bool)
      (write : Except SettingsError Unit)
  | remove (key : String) (write : Except SettingsError Unit)
  | subscribe (key : String)
  | unsubscribe (key : String) (id : Nat)
  | enter (index : Nat)
  | leave (index : Nat) (panicked : Bool)
  | finish (index : Nat)

namespace SettingsWorld

def start (document : JsonValue) (file : SettingsFile) : SettingsWorld :=
  ⟨⟨document, 1, fun _ => [], 0, file⟩, [], [], 0, fun _ => none, []⟩

def readFile (text : DocumentText) (fault : Option SettingsError) (world : SettingsWorld) :
    Except SettingsError (Option JsonValue) :=
  match fault with
  | some _ => .error .read
  | none =>
    match world.store.file.bytes text with
    | none => .ok none
    | some bytes => (text.parse bytes).map some

def settle (key : String) (write : Except SettingsError Unit) (world : SettingsWorld) :
    SettingsWorld :=
  let effect := match write with
    | .ok () => some (entry world.store.value key)
    | .error _ => none
  { world with settled := Function.update world.settled key effect }

def notify (value : JsonValue) (subscribers : List Subscriber) (write : Except SettingsError Unit)
    (world : SettingsWorld) : SettingsWorld :=
  { world with
    calls := world.calls ++ [⟨world.nextCall, value, subscribers, false, ⟨0, 0⟩, write⟩]
    nextCall := world.nextCall + 1
    log := .called world.nextCall :: world.log }

def recordRemoved (subscribers : List Subscriber) (world : SettingsWorld) : SettingsWorld :=
  { world with log := subscribers.map .removed ++ world.log }

def step (text : DocumentText) (world : SettingsWorld) : SettingsAction → Option SettingsWorld
  | .load fault =>
    match world.readFile text fault with
    | .ok (some document) => some { world with loads := world.loads ++ [document] }
    | _ => some world
  | .putInPlace index =>
    world.loads[index]?.map fun document =>
      { world with
        store := { world.store with value := document }
        loads := world.loads.eraseIdx index }
  | .save write => some { world with store := world.store.persist write }
  | .set key encoded write =>
    match world.store.set key encoded write with
    | (.error _, store) => some { world with store }
    | (.ok value, store) =>
      let world := settle key write { world with store }
      some (world.notify value (if value.isNull then [] else store.callbacksFor key) write)
  | .getOrInsert key encoded accepts write =>
    match world.store.getOrInsert key encoded accepts write with
    | (.ok (some value), store) =>
      let world := settle key write { world with store }
      some (world.notify value (store.callbacksFor key) write)
    | (_, store) => some { world with store }
  | .remove key write =>
    match world.store.remove key write with
    | (.error _, store) => some { world with store }
    | (.ok _, store) =>
      some (recordRemoved (world.store.callbacksFor key) (settle key write { world with store }))
  | .subscribe key =>
    let (subscriber, store) := world.store.subscribe key
    match store.current key with
    | some value => some (notify value [subscriber] (.ok ()) { world with store })
    | none => some { world with store }
  | .unsubscribe key id =>
    let removed := (world.store.callbacks key).filter fun other => other.id = id
    some (recordRemoved removed { world with store := world.store.unsubscribe key id })
  | .enter index =>
    match world.calls[index]? with
    | some ⟨id, value, subscriber :: pending, false, report, persistence⟩ =>
      some { world with
        calls := world.calls.set index
          ⟨id, value, pending, true, { report with attempted := report.attempted + 1 }, persistence⟩
        log := .entered id subscriber value :: world.log }
    | _ => none
  | .leave index panicked =>
    match world.calls[index]? with
    | some ⟨id, value, pending, true, report, persistence⟩ =>
      let report := { report with panicked := report.panicked + if panicked then 1 else 0 }
      some { world with
        calls := world.calls.set index ⟨id, value, pending, false, report, persistence⟩ }
    | _ => none
  | .finish index =>
    match world.calls[index]? with
    | some ⟨id, _, [], false, report, persistence⟩ =>
      some { world with
        calls := world.calls.eraseIdx index
        log := .returned id (persistence.map fun _ => report) :: world.log }
    | _ => none

end SettingsWorld

end Nexus.Settings
