import Mathlib.Data.String.Basic
import Nexus.InputBind
import Nexus.SortedMap

namespace Nexus

abbrev GameBindId := Fin (2 ^ 32)

structure KnownGameBind where
  id : GameBindId
  name : String

def knownGameBinds : List KnownGameBind := [
  ⟨0, "((MoveForward))"⟩,
  ⟨1, "((MoveBackward))"⟩,
  ⟨2, "((MoveLeft))"⟩,
  ⟨3, "((MoveRight))"⟩,
  ⟨4, "((MoveTurnLeft))"⟩,
  ⟨5, "((MoveTurnRight))"⟩,
  ⟨6, "((MoveDodge))"⟩,
  ⟨7, "((MoveAutoRun))"⟩,
  ⟨8, "((MoveWalk))"⟩,
  ⟨9, "((MoveJump))"⟩,
  ⟨10, "((MoveSwimUp))"⟩,
  ⟨11, "((MoveSwimDown))"⟩,
  ⟨12, "((MoveAboutFace))"⟩,
  ⟨17, "((SkillWeaponSwap))"⟩,
  ⟨18, "((SkillWeapon1))"⟩,
  ⟨19, "((SkillWeapon2))"⟩,
  ⟨20, "((SkillWeapon3))"⟩,
  ⟨21, "((SkillWeapon4))"⟩,
  ⟨22, "((SkillWeapon5))"⟩,
  ⟨23, "((SkillHeal))"⟩,
  ⟨24, "((SkillUtility1))"⟩,
  ⟨25, "((SkillUtility2))"⟩,
  ⟨26, "((SkillUtility3))"⟩,
  ⟨27, "((SkillElite))"⟩,
  ⟨28, "((SkillProfession1))"⟩,
  ⟨29, "((SkillProfession2))"⟩,
  ⟨30, "((SkillProfession3))"⟩,
  ⟨31, "((SkillProfession4))"⟩,
  ⟨79, "((SkillProfession5))"⟩,
  ⟨201, "((SkillProfession6))"⟩,
  ⟨202, "((SkillProfession7))"⟩,
  ⟨82, "((SkillSpecialAction))"⟩,
  ⟨131, "((TargetAlert))"⟩,
  ⟨32, "((TargetCall))"⟩,
  ⟨33, "((TargetTake))"⟩,
  ⟨199, "((TargetCallLocal))"⟩,
  ⟨200, "((TargetTakeLocal))"⟩,
  ⟨34, "((TargetEnemyNearest))"⟩,
  ⟨35, "((TargetEnemyNext))"⟩,
  ⟨36, "((TargetEnemyPrev))"⟩,
  ⟨37, "((TargetAllyNearest))"⟩,
  ⟨38, "((TargetAllyNext))"⟩,
  ⟨39, "((TargetAllyPrev))"⟩,
  ⟨40, "((TargetLock))"⟩,
  ⟨80, "((TargetSnapGroundTarget))"⟩,
  ⟨115, "((TargetSnapGroundTargetToggle))"⟩,
  ⟨116, "((TargetAutoTargetingDisable))"⟩,
  ⟨117, "((TargetAutoTargetingToggle))"⟩,
  ⟨197, "((TargetAllyTargetingMode))"⟩,
  ⟨198, "((TargetAllyTargetingModeToggle))"⟩,
  ⟨41, "((UiCommerce))"⟩,
  ⟨42, "((UiContacts))"⟩,
  ⟨43, "((UiGuild))"⟩,
  ⟨44, "((UiHero))"⟩,
  ⟨45, "((UiInventory))"⟩,
  ⟨46, "((UiKennel))"⟩,
  ⟨47, "((UiLogout))"⟩,
  ⟨71, "((UiMail))"⟩,
  ⟨48, "((UiOptions))"⟩,
  ⟨49, "((UiParty))"⟩,
  ⟨73, "((UiPvp))"⟩,
  ⟨75, "((UiPvpBuild))"⟩,
  ⟨50, "((UiScoreboard))"⟩,
  ⟨209, "((UiSeasonalObjectivesShop))"⟩,
  ⟨51, "((UiInformation))"⟩,
  ⟨70, "((UiChatToggle))"⟩,
  ⟨52, "((UiChatCommand))"⟩,
  ⟨53, "((UiChatFocus))"⟩,
  ⟨54, "((UiChatReply))"⟩,
  ⟨55, "((UiToggle))"⟩,
  ⟨85, "((UiSquadBroadcastChatToggle))"⟩,
  ⟨83, "((UiSquadBroadcastChatCommand))"⟩,
  ⟨84, "((UiSquadBroadcastChatFocus))"⟩,
  ⟨13, "((CameraFree))"⟩,
  ⟨14, "((CameraZoomIn))"⟩,
  ⟨15, "((CameraZoomOut))"⟩,
  ⟨16, "((CameraReverse))"⟩,
  ⟨78, "((CameraActionMode))"⟩,
  ⟨114, "((CameraActionModeDisable))"⟩,
  ⟨56, "((ScreenshotNormal))"⟩,
  ⟨57, "((ScreenshotStereoscopic))"⟩,
  ⟨59, "((MapToggle))"⟩,
  ⟨60, "((MapFocusPlayer))"⟩,
  ⟨61, "((MapFloorDown))"⟩,
  ⟨62, "((MapFloorUp))"⟩,
  ⟨63, "((MapZoomIn))"⟩,
  ⟨64, "((MapZoomOut))"⟩,
  ⟨152, "((SpumoniToggle))"⟩,
  ⟨130, "((SpumoniMovement))"⟩,
  ⟨153, "((SpumoniSecondaryMovement))"⟩,
  ⟨155, "((SpumoniMAM01))"⟩,
  ⟨156, "((SpumoniMAM02))"⟩,
  ⟨157, "((SpumoniMAM03))"⟩,
  ⟨158, "((SpumoniMAM04))"⟩,
  ⟨159, "((SpumoniMAM05))"⟩,
  ⟨161, "((SpumoniMAM06))"⟩,
  ⟨169, "((SpumoniMAM07))"⟩,
  ⟨170, "((SpumoniMAM08))"⟩,
  ⟨203, "((SpumoniMAM09))"⟩,
  ⟨102, "((SpectatorNearestFixed))"⟩,
  ⟨103, "((SpectatorNearestPlayer))"⟩,
  ⟨104, "((SpectatorPlayerRed1))"⟩,
  ⟨105, "((SpectatorPlayerRed2))"⟩,
  ⟨106, "((SpectatorPlayerRed3))"⟩,
  ⟨107, "((SpectatorPlayerRed4))"⟩,
  ⟨108, "((SpectatorPlayerRed5))"⟩,
  ⟨109, "((SpectatorPlayerBlue1))"⟩,
  ⟨110, "((SpectatorPlayerBlue2))"⟩,
  ⟨111, "((SpectatorPlayerBlue3))"⟩,
  ⟨112, "((SpectatorPlayerBlue4))"⟩,
  ⟨113, "((SpectatorPlayerBlue5))"⟩,
  ⟨120, "((SpectatorFreeCamera))"⟩,
  ⟨127, "((SpectatorFreeCameraMode))"⟩,
  ⟨121, "((SpectatorFreeMoveForward))"⟩,
  ⟨122, "((SpectatorFreeMoveBackward))"⟩,
  ⟨123, "((SpectatorFreeMoveLeft))"⟩,
  ⟨124, "((SpectatorFreeMoveRight))"⟩,
  ⟨125, "((SpectatorFreeMoveUp))"⟩,
  ⟨126, "((SpectatorFreeMoveDown))"⟩,
  ⟨86, "((SquadMarkerPlaceWorld1))"⟩,
  ⟨87, "((SquadMarkerPlaceWorld2))"⟩,
  ⟨88, "((SquadMarkerPlaceWorld3))"⟩,
  ⟨89, "((SquadMarkerPlaceWorld4))"⟩,
  ⟨90, "((SquadMarkerPlaceWorld5))"⟩,
  ⟨91, "((SquadMarkerPlaceWorld6))"⟩,
  ⟨92, "((SquadMarkerPlaceWorld7))"⟩,
  ⟨93, "((SquadMarkerPlaceWorld8))"⟩,
  ⟨119, "((SquadMarkerClearAllWorld))"⟩,
  ⟨94, "((SquadMarkerSetAgent1))"⟩,
  ⟨95, "((SquadMarkerSetAgent2))"⟩,
  ⟨96, "((SquadMarkerSetAgent3))"⟩,
  ⟨97, "((SquadMarkerSetAgent4))"⟩,
  ⟨98, "((SquadMarkerSetAgent5))"⟩,
  ⟨99, "((SquadMarkerSetAgent6))"⟩,
  ⟨100, "((SquadMarkerSetAgent7))"⟩,
  ⟨101, "((SquadMarkerSetAgent8))"⟩,
  ⟨118, "((SquadMarkerClearAllAgent))"⟩,
  ⟨196, "((MasteryAccess))"⟩,
  ⟨204, "((MasteryAccess01))"⟩,
  ⟨205, "((MasteryAccess02))"⟩,
  ⟨206, "((MasteryAccess03))"⟩,
  ⟨207, "((MasteryAccess04))"⟩,
  ⟨208, "((MasteryAccess05))"⟩,
  ⟨211, "((MasteryAccess06))"⟩,
  ⟨74, "((MiscAoELoot))"⟩,
  ⟨65, "((MiscInteract))"⟩,
  ⟨66, "((MiscShowEnemies))"⟩,
  ⟨67, "((MiscShowAllies))"⟩,
  ⟨68, "((MiscCombatStance))"⟩,
  ⟨69, "((MiscToggleLanguage))"⟩,
  ⟨76, "((MiscTogglePetCombat))"⟩,
  ⟨160, "((MiscToggleFullScreen))"⟩,
  ⟨210, "((MiscToggleDecorationMode))"⟩,
  ⟨162, "((ToyUseDefault))"⟩,
  ⟨163, "((ToyUseSlot1))"⟩,
  ⟨164, "((ToyUseSlot2))"⟩,
  ⟨165, "((ToyUseSlot3))"⟩,
  ⟨166, "((ToyUseSlot4))"⟩,
  ⟨167, "((ToyUseSlot5))"⟩,
  ⟨171, "((Loadout1))"⟩,
  ⟨172, "((Loadout2))"⟩,
  ⟨173, "((Loadout3))"⟩,
  ⟨174, "((Loadout4))"⟩,
  ⟨175, "((Loadout5))"⟩,
  ⟨176, "((Loadout6))"⟩,
  ⟨177, "((Loadout7))"⟩,
  ⟨178, "((Loadout8))"⟩,
  ⟨179, "((Loadout9))"⟩,
  ⟨182, "((GearLoadout1))"⟩,
  ⟨183, "((GearLoadout2))"⟩,
  ⟨184, "((GearLoadout3))"⟩,
  ⟨185, "((GearLoadout4))"⟩,
  ⟨186, "((GearLoadout5))"⟩,
  ⟨187, "((GearLoadout6))"⟩,
  ⟨188, "((GearLoadout7))"⟩,
  ⟨189, "((GearLoadout8))"⟩,
  ⟨190, "((GearLoadout9))"⟩]

namespace GameBindId

def legacyMoveSwimUp : GameBindId := 10

def moveJumpSwimUpFlyUp : GameBindId := 9

def name (id : GameBindId) : Option String :=
  (knownGameBinds.find? fun entry => entry.id = id).map KnownGameBind.name

/-- Migrates the legacy standalone swim-up action to the merged jump action. -/
def canonical (id : GameBindId) : GameBindId :=
  if id = legacyMoveSwimUp then moveJumpSwimUpFlyUp else id

@[simp] theorem canonical_canonical (id : GameBindId) : canonical (canonical id) = canonical id := by
  unfold canonical
  by_cases h : id = legacyMoveSwimUp
  · simp only [if_pos h]
    rfl
  · simp only [if_neg h]

end GameBindId

def gameScanCodes : List (Fin (2 ^ 16) × Fin (2 ^ 16)) := [
  (0, 0x38), (1, 0x1D), (2, 0x2A), (3, 0x28), (4, 0x2B), (5, 0x3A),
  (6, 0x33), (7, 0x0C), (8, 0x0D), (9, 0x01), (10, 0x1A), (11, 0xE045),
  (12, 0x34), (13, 0x1B), (14, 0x27), (15, 0x35), (16, 0xE037), (17, 0x29),
  (18, 0x0E), (19, 0xE053), (20, 0x1C), (21, 0x39), (22, 0x0F), (23, 0xE04F),
  (24, 0xE047), (25, 0xE052), (26, 0xE051), (27, 0xE049), (28, 0xE050), (29, 0xE04B),
  (30, 0xE04D), (31, 0xE048), (32, 0x3B), (33, 0x3C), (34, 0x3D), (35, 0x3E),
  (36, 0x3F), (37, 0x40), (38, 0x41), (39, 0x42), (40, 0x43), (41, 0x44),
  (42, 0x57), (43, 0x58), (48, 0x0B), (49, 0x02), (50, 0x03), (51, 0x04),
  (52, 0x05), (53, 0x06), (54, 0x07), (55, 0x08), (56, 0x09), (57, 0x0A),
  (65, 0x1E), (66, 0x30), (67, 0x2E), (68, 0x20), (69, 0x12), (70, 0x21),
  (71, 0x22), (72, 0x23), (73, 0x17), (74, 0x24), (75, 0x25), (76, 0x26),
  (77, 0x32), (78, 0x31), (79, 0x18), (80, 0x19), (81, 0x10), (82, 0x13),
  (83, 0x1F), (84, 0x14), (85, 0x16), (86, 0x2F), (87, 0x11), (88, 0x2D),
  (89, 0x15), (90, 0x2C), (91, 0x4E), (92, 0x53), (93, 0xE035), (94, 0x37),
  (95, 0x52), (96, 0x4F), (97, 0x50), (98, 0x51), (99, 0x4B), (100, 0x4C),
  (101, 0x4D), (102, 0x47), (103, 0x48), (104, 0x49), (105, 0xE01C), (106, 0x4A),
  (109, 0xE038), (110, 0xE01D), (111, 0x56), (135, 0x36)]

def gameScanCodeToScanCode (gameScanCode : Fin (2 ^ 16)) : Fin (2 ^ 16) :=
  ((gameScanCodes.find? fun entry => entry.1 = gameScanCode).map Prod.snd).getD 0

def scanCodeToGameScanCode (scanCode : Fin (2 ^ 16)) : Fin (2 ^ 16) :=
  ((gameScanCodes.find? fun entry => entry.2 = scanCode).map Prod.fst).getD 0

structure DefaultKey where
  alt : Bool
  control : Bool
  shift : Bool
  gameScanCode : Fin (2 ^ 16)

namespace DefaultKey

def toInputBind (entry : DefaultKey) : InputBind :=
  ⟨entry.alt, entry.control, entry.shift, .keyboard, gameScanCodeToScanCode entry.gameScanCode⟩

def key (gameScanCode : Fin (2 ^ 16)) : DefaultKey := ⟨false, false, false, gameScanCode⟩

def modified (alt control shift : Bool) (gameScanCode : Fin (2 ^ 16)) : DefaultKey :=
  ⟨alt, control, shift, gameScanCode⟩

end DefaultKey

structure DefaultBinding where
  action : GameBindId
  primary : DefaultKey
  secondary : Option DefaultKey

open DefaultKey in
def defaultBoundBinds : List DefaultBinding := [
  ⟨0, key 87, some (key 31)⟩,
  ⟨1, key 83, some (key 28)⟩,
  ⟨2, key 65, some (key 29)⟩,
  ⟨3, key 68, some (key 30)⟩,
  ⟨4, key 81, none⟩,
  ⟨5, key 69, none⟩,
  ⟨6, key 86, none⟩,
  ⟨7, key 82, some (key 11)⟩,
  ⟨9, key 21, none⟩,
  ⟨17, key 17, none⟩,
  ⟨18, key 49, none⟩,
  ⟨19, key 50, none⟩,
  ⟨20, key 51, none⟩,
  ⟨21, key 52, none⟩,
  ⟨22, key 53, none⟩,
  ⟨23, key 54, none⟩,
  ⟨24, key 55, none⟩,
  ⟨25, key 56, none⟩,
  ⟨26, key 57, none⟩,
  ⟨27, key 48, none⟩,
  ⟨28, key 32, none⟩,
  ⟨29, key 33, none⟩,
  ⟨30, key 34, none⟩,
  ⟨31, key 35, none⟩,
  ⟨79, key 36, none⟩,
  ⟨201, key 37, none⟩,
  ⟨202, key 38, none⟩,
  ⟨82, key 78, none⟩,
  ⟨131, modified false false true 84, none⟩,
  ⟨32, modified false true false 84, none⟩,
  ⟨33, key 84, none⟩,
  ⟨35, key 22, none⟩,
  ⟨36, modified false false true 22, none⟩,
  ⟨41, key 79, none⟩,
  ⟨42, key 89, none⟩,
  ⟨43, key 71, none⟩,
  ⟨44, key 72, none⟩,
  ⟨45, key 73, none⟩,
  ⟨46, key 75, none⟩,
  ⟨47, key 43, none⟩,
  ⟨48, key 42, none⟩,
  ⟨49, key 80, none⟩,
  ⟨50, key 66, none⟩,
  ⟨209, modified false false true 72, none⟩,
  ⟨51, key 7, none⟩,
  ⟨70, key 4, none⟩,
  ⟨52, key 15, none⟩,
  ⟨53, key 20, some (key 105)⟩,
  ⟨54, key 18, none⟩,
  ⟨55, modified false true true 72, none⟩,
  ⟨85, modified false false true 4, none⟩,
  ⟨83, modified false false true 15, none⟩,
  ⟨84, modified false false true 20, some (modified false false true 105)⟩,
  ⟨14, key 27, none⟩,
  ⟨15, key 26, none⟩,
  ⟨56, key 16, none⟩,
  ⟨59, key 77, none⟩,
  ⟨60, key 21, none⟩,
  ⟨61, key 26, none⟩,
  ⟨62, key 27, none⟩,
  ⟨63, key 91, some (key 8)⟩,
  ⟨64, key 106, some (key 7)⟩,
  ⟨152, key 88, none⟩,
  ⟨130, key 86, none⟩,
  ⟨153, key 67, none⟩,
  ⟨102, modified false false true 22, none⟩,
  ⟨103, key 22, none⟩,
  ⟨104, key 49, none⟩,
  ⟨105, key 50, none⟩,
  ⟨106, key 51, none⟩,
  ⟨107, key 52, none⟩,
  ⟨108, key 53, none⟩,
  ⟨109, key 54, none⟩,
  ⟨110, key 55, none⟩,
  ⟨111, key 56, none⟩,
  ⟨112, key 57, none⟩,
  ⟨113, key 48, none⟩,
  ⟨120, modified false true true 70, none⟩,
  ⟨127, key 69, none⟩,
  ⟨121, key 87, none⟩,
  ⟨122, key 83, none⟩,
  ⟨123, key 65, none⟩,
  ⟨124, key 68, none⟩,
  ⟨125, key 21, none⟩,
  ⟨126, key 86, none⟩,
  ⟨86, modified true false false 49, none⟩,
  ⟨87, modified true false false 50, none⟩,
  ⟨88, modified true false false 51, none⟩,
  ⟨89, modified true false false 52, none⟩,
  ⟨90, modified true false false 53, none⟩,
  ⟨91, modified true false false 54, none⟩,
  ⟨92, modified true false false 55, none⟩,
  ⟨93, modified true false false 56, none⟩,
  ⟨119, modified true false false 57, none⟩,
  ⟨94, modified true false true 49, none⟩,
  ⟨95, modified true false true 50, none⟩,
  ⟨96, modified true false true 51, none⟩,
  ⟨97, modified true false true 52, none⟩,
  ⟨98, modified true false true 53, none⟩,
  ⟨99, modified true false true 54, none⟩,
  ⟨100, modified true false true 55, none⟩,
  ⟨101, modified true false true 56, none⟩,
  ⟨118, modified true false true 57, none⟩,
  ⟨196, key 74, none⟩,
  ⟨65, key 70, none⟩,
  ⟨66, key 1, none⟩,
  ⟨67, key 0, none⟩,
  ⟨69, key 110, none⟩,
  ⟨160, modified true false false 20, none⟩,
  ⟨210, key 76, none⟩,
  ⟨162, key 85, none⟩]

inductive GameSlot where
  | primary
  | secondary
  deriving DecidableEq

structure MultiInputBind where
  primary : InputBind
  secondary : InputBind
  deriving DecidableEq

namespace MultiInputBind

def default : MultiInputBind := ⟨.default, .default⟩

def selected (binds : MultiInputBind) : Option InputBind :=
  if binds.primary.isBound then some binds.primary
  else if binds.secondary.isBound then some binds.secondary
  else none

def slot (binds : MultiInputBind) : GameSlot → InputBind
  | .primary => binds.primary
  | .secondary => binds.secondary

def setSlot (binds : MultiInputBind) (slot : GameSlot) (bind : InputBind) : MultiInputBind :=
  match slot with
  | .primary => { binds with primary := bind }
  | .secondary => { binds with secondary := bind }

end MultiInputBind

structure GameBindRegistry where
  bindings : SortedMap GameBindId MultiInputBind
  rootExtra : SortedMap String String
  actionExtra : SortedMap GameBindId (SortedMap String String)
  loadedNames : SortedMap GameBindId String

namespace GameBindRegistry

def unboundBindings : SortedMap GameBindId MultiInputBind :=
  knownGameBinds.foldl (fun bindings entry =>
    if entry.id = GameBindId.legacyMoveSwimUp then bindings
    else bindings.put entry.id .default) .empty

def applyDefaults (bindings : SortedMap GameBindId MultiInputBind) :
    SortedMap GameBindId MultiInputBind :=
  defaultBoundBinds.foldl (fun bindings entry =>
    bindings.put entry.action
      ⟨entry.primary.toInputBind, (entry.secondary.map DefaultKey.toInputBind).getD .default⟩)
    bindings

def withDefaults : GameBindRegistry := ⟨applyDefaults unboundBindings, .empty, .empty, .empty⟩

def get (registry : GameBindRegistry) (action : GameBindId) : Option MultiInputBind :=
  registry.bindings.get? action.canonical

def isBound (registry : GameBindRegistry) (action : GameBindId) : Bool :=
  ((registry.get action).bind MultiInputBind.selected).isSome

def set (registry : GameBindRegistry) (action : GameBindId) (slot : GameSlot)
    (binding : InputBind) : Bool × GameBindRegistry :=
  if action = GameBindId.legacyMoveSwimUp then (false, registry)
  else
    let entry := (registry.bindings.get? action).getD .default
    (true, { registry with
      bindings := registry.bindings.put action (entry.setSlot slot binding.normalized) })

end GameBindRegistry

end Nexus
