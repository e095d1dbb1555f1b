import Mathlib.Data.String.Basic
import Nexus.SortedMap
import Nexus.UiCallbacks

namespace Nexus.UiHost

inductive QuickAccessPosition where
  | extend
  | under
  | bottom
  | custom
  deriving DecidableEq

inductive QuickAccessVisibility where
  | alwaysShow
  | gameplay
  | outOfCombat
  | inCombat
  | hide
  deriving DecidableEq

structure QuickAccessSettings where
  verticalLayout : Bool
  visibility : QuickAccessVisibility
  position : QuickAccessPosition
  offsetX : BitVec 32
  offsetY : BitVec 32
  onlyShowOnHover : Bool
  opacity : BitVec 32
  deriving DecidableEq

def QuickAccessSettings.default : QuickAccessSettings :=
  ⟨false, .alwaysShow, .extend, 0, 0, false, 0x3F000000⟩

structure QuickAccessConfig where
  maximumShortcuts : Nat
  maximumContextItems : Nat
  maximumNotificationsPerShortcut : Nat
  maximumSuppressedIdentifiers : Nat
  maximumStringBytes : Nat
  maximumPanicsPerCallback : Nat
  deriving DecidableEq

def QuickAccessConfig.default : QuickAccessConfig := ⟨2048, 8192, 256, 2048, 4096, 3⟩

def QuickAccessConfig.validate (config : QuickAccessConfig) :
    Except UiRegistryError QuickAccessConfig :=
  if config.maximumShortcuts = 0 ∨ config.maximumContextItems = 0 ∨
      config.maximumNotificationsPerShortcut = 0 ∨ config.maximumSuppressedIdentifiers = 0 ∨
      config.maximumStringBytes = 0 ∨ config.maximumPanicsPerCallback = 0 then
    .error (.invalidConfiguration "Quick Access limits must all be non-zero")
  else .ok config

inductive ShortcutRegistrationOutcome where
  | registered
  | duplicate
  deriving DecidableEq

structure ShortcutMutation where
  outcome : ShortcutRegistrationOutcome
  adoptedOrphans : Nat
  revision : Nat
  deriving DecidableEq

inductive ContextRegistrationOutcome where
  | attached
  | orphaned
  | duplicate
  deriving DecidableEq

inductive NotificationOutcome where
  | added
  | duplicate
  | removed
  | shortcutMissing
  | notificationMissing
  deriving DecidableEq

structure ContextItem where
  id : String
  target : String
  callback : CallbackSlot
  deriving DecidableEq

namespace ContextItem

def owner (item : ContextItem) : OwnerGeneration := item.callback.callback.owner.identity

def ownedBy (item : ContextItem) (owner : OwnerHandle) : Bool :=
  decide (item.owner = owner.identity) && item.callback.callback.owner.sharesLifecycle owner

end ContextItem

structure Notification where
  owner : OwnerGeneration
  key : String
  deriving DecidableEq

structure Shortcut where
  owner : OwnerHandle
  id : String
  texture : String
  hoverTexture : String
  inputBind : String
  tooltip : String
  suppressed : Bool
  contextItems : SortedMap String ContextItem
  notifications : List Notification

namespace Shortcut

def keepItems (keeps : String → ContextItem → Bool) (shortcut : Shortcut) : Shortcut :=
  { shortcut with contextItems := shortcut.contextItems.filter keeps }

def withoutOwner (owner : OwnerGeneration) (shortcut : Shortcut) : Shortcut :=
  { shortcut.keepItems fun _ item => item.owner ≠ owner with
    notifications := shortcut.notifications.filter fun notification => notification.owner ≠ owner }

end Shortcut

structure QuickAccessCleanup where
  shortcuts : Nat
  contextItems : Nat
  orphanContextItems : Nat
  notifications : Nat
  deriving DecidableEq

def QuickAccessCleanup.none : QuickAccessCleanup := ⟨0, 0, 0, 0⟩

structure QuickAccess where
  shortcuts : SortedMap String Shortcut
  orphans : SortedMap String ContextItem
  suppressed : SortedMap String Unit
  settings : QuickAccessSettings
  revision : Nat
  slots : CallbackSlots

namespace QuickAccess

def new (slots : CallbackSlots) : QuickAccess := ⟨.empty, .empty, .empty, .default, 0, slots⟩

def qaMenuId : String := "!Nexus"

def qaGenericKey : String := "Generic"

/-- The revision saturates like the code's `u64`. -/
def bump (qa : QuickAccess) : QuickAccess :=
  { qa with revision := min (qa.revision + 1) (2 ^ 64 - 1) }

def contextCount (qa : QuickAccess) : Nat :=
  qa.orphans.toList.length +
    (qa.shortcuts.values.map fun shortcut => shortcut.contextItems.toList.length).sum

def putShortcut (qa : QuickAccess) (id : String) (shortcut : Shortcut) : QuickAccess :=
  { qa with shortcuts := qa.shortcuts.put id shortcut }

def deactivate (qa : QuickAccess) (item : ContextItem) : QuickAccess :=
  { qa with slots := qa.slots.deactivate item.callback }

def orphan (qa : QuickAccess) (entry : String × ContextItem) : QuickAccess :=
  if (qa.orphans.get? entry.1).isSome then qa.deactivate entry.2
  else { qa with orphans := qa.orphans.put entry.1 entry.2 }

def dropShortcut (qa : QuickAccess) (entry : String × Shortcut) : QuickAccess :=
  entry.2.contextItems.toList.foldl orphan { qa with shortcuts := qa.shortcuts.erase entry.1 }

def adopt (state : Nat × QuickAccess) (id : String) : Nat × QuickAccess :=
  match state.2.orphans.get? id with
  | none => state
  | some item =>
    let qa := { state.2 with orphans := state.2.orphans.erase id }
    match qa.shortcuts.get? item.target with
    | none => (state.1, qa)
    | some parent =>
      if (parent.contextItems.get? item.id).isSome then (state.1, qa.deactivate item)
      else
        (state.1 + 1, qa.putShortcut item.target
          { parent with contextItems := parent.contextItems.put item.id item })

def reparentOrphans (qa : QuickAccess) : Nat × QuickAccess :=
  ((qa.orphans.filter fun _ item => (qa.shortcuts.get? item.target).isSome).toList.map
    Prod.fst).foldl adopt (0, qa)

def insertShortcut (config : QuickAccessConfig) (owner : OwnerHandle)
    (id texture hoverTexture inputBind tooltip : String) (qa : QuickAccess) :
    Except UiRegistryError (ShortcutRegistrationOutcome × QuickAccess) :=
  if (qa.shortcuts.get? id).isSome then .ok (.duplicate, qa)
  else if config.maximumShortcuts ≤ qa.shortcuts.toList.length then
    .error (.capacityExceeded "Quick Access shortcuts" config.maximumShortcuts)
  else
    .ok (.registered, qa.putShortcut id ⟨owner, id, texture, hoverTexture, inputBind, tooltip,
      (qa.suppressed.get? id).isSome, .empty, []⟩)

/-- `add_shortcut`. `entered` is whether the owner's gate admitted the caller. -/
def addShortcut (config : QuickAccessConfig) (entered : Bool) (owner : OwnerHandle)
    (id texture hoverTexture inputBind tooltip : String) :
    Fallible QuickAccess UiRegistryError ShortcutMutation := fun qa =>
  match (do
    validateText "shortcut identifier" id config.maximumStringBytes
    validateText "shortcut texture" texture config.maximumStringBytes
    validateText "shortcut hover texture" hoverTexture config.maximumStringBytes
    validateText "shortcut input bind" inputBind config.maximumStringBytes
    validateText "shortcut tooltip" tooltip config.maximumStringBytes) with
  | .error error => (.error error, qa)
  | .ok () =>
    if entered = false then (.error (.ownerRetired owner.identity), qa)
    else
      match insertShortcut config owner id texture hoverTexture inputBind tooltip qa with
      | .error error => (.error error, qa)
      | .ok (outcome, inserted) =>
        let (adopted, reparented) := reparentOrphans inserted
        (.ok ⟨outcome, adopted, reparented.bump.revision⟩, reparented.bump)

def removeShortcut (config : QuickAccessConfig) (id : String) :
    Fallible QuickAccess UiRegistryError Bool := fun qa =>
  match validateText "shortcut identifier" id config.maximumStringBytes with
  | .error error => (.error error, qa)
  | .ok () =>
    match qa.shortcuts.get? id with
    | none => (.ok false, qa.bump)
    | some shortcut => (.ok true, (qa.dropShortcut (id, shortcut)).bump)

def removeShortcutForOwner (config : QuickAccessConfig) (entered : Bool) (owner : OwnerHandle)
    (id : String) : Fallible QuickAccess UiRegistryError Bool := fun qa =>
  match validateText "shortcut identifier" id config.maximumStringBytes with
  | .error error => (.error error, qa)
  | .ok () =>
    if entered = false then (.error (.ownerRetired owner.identity), qa)
    else
      match qa.shortcuts.get? id with
      | none => (.ok false, qa)
      | some shortcut =>
        if shortcut.owner.identity = owner.identity ∧ shortcut.owner.sharesLifecycle owner = true then
          (.ok true, (qa.dropShortcut (id, shortcut)).bump)
        else (.ok false, qa)

def isTaken (qa : QuickAccess) (target id : String) : Bool :=
  match qa.shortcuts.get? target with
  | none => (qa.orphans.get? id).isSome
  | some shortcut => (shortcut.contextItems.get? id).isSome

def placeItem (qa : QuickAccess) (item : ContextItem) : ContextRegistrationOutcome × QuickAccess :=
  match qa.shortcuts.get? item.target with
  | some shortcut =>
    (.attached, qa.putShortcut item.target
      { shortcut with contextItems := shortcut.contextItems.put item.id item })
  | none => (.orphaned, { qa with orphans := qa.orphans.put item.id item })

def addContextItem (config : QuickAccessConfig) (entered : Bool) (id target : String)
    (callback : UiCallback) : Fallible QuickAccess UiRegistryError ContextRegistrationOutcome :=
  fun qa =>
    match (do
      validateText "context item identifier" id config.maximumStringBytes
      validateText "context target identifier" target config.maximumStringBytes) with
    | .error error => (.error error, qa)
    | .ok () =>
      if entered = false then (.error (.ownerRetired callback.owner.identity), qa)
      else if qa.isTaken target id then (.ok .duplicate, qa.bump)
      else if config.maximumContextItems ≤ qa.contextCount then
        (.error (.capacityExceeded "Quick Access context items" config.maximumContextItems), qa)
      else
        let (slot, slots) := qa.slots.allocate callback config.maximumPanicsPerCallback
        let (outcome, next) := placeItem { qa with slots } ⟨id, target, slot⟩
        (.ok outcome, next.bump)

def addSimpleShortcut (config : QuickAccessConfig) (entered : Bool) (id : String)
    (callback : UiCallback) : Fallible QuickAccess UiRegistryError ContextRegistrationOutcome :=
  addContextItem config entered id qaMenuId callback

def takenItems (removes : ContextItem → Bool) (id : String) (qa : QuickAccess) :
    List ContextItem :=
  (qa.shortcuts.values.filterMap fun shortcut => (shortcut.contextItems.get? id).filter removes) ++
    ((qa.orphans.get? id).filter removes).toList

def takeItems (removes : ContextItem → Bool) (id : String) (qa : QuickAccess) : QuickAccess :=
  let keeps := fun (key : String) (item : ContextItem) => !(decide (key = id) && removes item)
  { (qa.takenItems removes id).foldl deactivate qa with
    shortcuts := qa.shortcuts.mapValues (Shortcut.keepItems keeps)
    orphans := qa.orphans.filter keeps }

def removeContextItem (config : QuickAccessConfig) (id : String) :
    Fallible QuickAccess UiRegistryError Nat := fun qa =>
  match validateText "context item identifier" id config.maximumStringBytes with
  | .error error => (.error error, qa)
  | .ok () =>
    (.ok (qa.takenItems (fun _ => true) id).length, (qa.takeItems (fun _ => true) id).bump)

def removeContextItemForOwner (config : QuickAccessConfig) (entered : Bool) (owner : OwnerHandle)
    (id : String) : Fallible QuickAccess UiRegistryError Nat := fun qa =>
  match validateText "context item identifier" id config.maximumStringBytes with
  | .error error => (.error error, qa)
  | .ok () =>
    if entered = false then (.error (.ownerRetired owner.identity), qa)
    else
      let removed := (qa.takenItems (·.ownedBy owner) id).length
      let next := qa.takeItems (·.ownedBy owner) id
      (.ok removed, if 0 < removed then next.bump else next)

def pushNotification (config : QuickAccessConfig) (entered : Bool) (owner : OwnerHandle)
    (shortcutId key : String) : Fallible QuickAccess UiRegistryError NotificationOutcome :=
  fun qa =>
    match (do
      validateText "shortcut identifier" shortcutId config.maximumStringBytes
      validateText "notification key" key config.maximumStringBytes) with
    | .error error => (.error error, qa)
    | .ok () =>
      if entered = false then (.error (.ownerRetired owner.identity), qa)
      else
        match qa.shortcuts.get? shortcutId with
        | none => (.ok .shortcutMissing, qa)
        | some shortcut =>
          if shortcut.notifications.any fun notification => notification.key = key then
            (.ok .duplicate, qa)
          else if config.maximumNotificationsPerShortcut ≤ shortcut.notifications.length then
            (.error (.capacityExceeded "Quick Access shortcut notifications"
              config.maximumNotificationsPerShortcut), qa)
          else
            (.ok .added, bump (qa.putShortcut shortcutId { shortcut with
              notifications := shortcut.notifications ++ [⟨owner.identity, key⟩] }))

def popNotification (config : QuickAccessConfig) (shortcutId key : String) :
    Fallible QuickAccess UiRegistryError NotificationOutcome := fun qa =>
  match (do
    validateText "shortcut identifier" shortcutId config.maximumStringBytes
    validateText "notification key" key config.maximumStringBytes) with
  | .error error => (.error error, qa)
  | .ok () =>
    match qa.shortcuts.get? shortcutId with
    | none => (.ok .shortcutMissing, qa)
    | some shortcut =>
      match shortcut.notifications.findIdx? fun notification => notification.key = key with
      | none => (.ok .notificationMissing, qa)
      | some index =>
        (.ok .removed, bump (qa.putShortcut shortcutId
          { shortcut with notifications := shortcut.notifications.eraseIdx index }))

def setGenericNotification (config : QuickAccessConfig) (entered : Bool) (owner : OwnerHandle)
    (shortcutId : String) (state : Bool) :
    Fallible QuickAccess UiRegistryError NotificationOutcome :=
  if state then pushNotification config entered owner shortcutId qaGenericKey
  else popNotification config shortcutId qaGenericKey

def setSuppressed (config : QuickAccessConfig) (id : String) (suppressed : Bool) :
    Fallible QuickAccess UiRegistryError Unit := fun qa =>
  match validateText "suppressed shortcut identifier" id config.maximumStringBytes with
  | .error error => (.error error, qa)
  | .ok () =>
    if suppressed = true ∧ (qa.suppressed.get? id).isNone = true ∧
        config.maximumSuppressedIdentifiers ≤ qa.suppressed.toList.length then
      (.error (.capacityExceeded "Quick Access suppressed identifiers"
        config.maximumSuppressedIdentifiers), qa)
    else
      let qa := { qa with
        suppressed := if suppressed then qa.suppressed.put id () else qa.suppressed.erase id }
      match qa.shortcuts.get? id with
      | some shortcut => (.ok (), bump (qa.putShortcut id { shortcut with suppressed }))
      | none => (.ok (), qa.bump)

def setSettings (settings : QuickAccessSettings) (qa : QuickAccess) : QuickAccess :=
  bump { qa with settings }

def ownedItems (owner : OwnerGeneration) (qa : QuickAccess) : List ContextItem :=
  (qa.shortcuts.values.flatMap fun shortcut =>
      shortcut.contextItems.values.filter fun item => item.owner = owner) ++
    qa.orphans.values.filter fun item => item.owner = owner

def dropOwnerItems (owner : OwnerGeneration) (qa : QuickAccess) : QuickAccess :=
  { (qa.ownedItems owner).foldl deactivate qa with
    shortcuts := qa.shortcuts.mapValues (Shortcut.withoutOwner owner)
    orphans := qa.orphans.filter fun _ item => item.owner ≠ owner }

def ownedShortcuts (owner : OwnerGeneration) (qa : QuickAccess) : List (String × Shortcut) :=
  qa.shortcuts.toList.filter fun entry => entry.2.owner.identity = owner

def notificationCount (qa : QuickAccess) : Nat :=
  (qa.shortcuts.values.map fun shortcut => shortcut.notifications.length).sum

/-- Removes what one generation owns and moves the other items of its shortcuts to the orphans. The
handles of the removed callbacks are to be drained. -/
def cleanupOwnerGeneration (owner : OwnerGeneration) (qa : QuickAccess) :
    (QuickAccessCleanup × List OwnerHandle) × QuickAccess :=
  let left := qa.dropOwnerItems owner
  let owned := left.ownedShortcuts owner
  let next := owned.foldl dropShortcut left
  let report : QuickAccessCleanup :=
    { shortcuts := owned.length
      contextItems := (qa.shortcuts.values.map fun shortcut =>
        shortcut.contextItems.values.countP fun item => item.owner = owner).sum
      orphanContextItems := qa.orphans.values.countP fun item => item.owner = owner
      notifications := qa.notificationCount - left.notificationCount +
        (owned.map fun entry => entry.2.notifications.length).sum }
  ((report, (qa.ownedItems owner).map fun item => item.callback.callback.owner),
    if report = .none then next else next.bump)

end QuickAccess

end Nexus.UiHost
