import Mathlib.Data.Finset.Sort
import Nexus.FontManager
import Nexus.Json
import Nexus.StandingLog
import Nexus.Words

namespace Nexus

open Fallible

inductive LocaleSourceError where
  | directoryUnavailable
  | assetUnreadable
  deriving DecidableEq

inductive LocalizationError where
  | interiorNul
  | queueFull
  | invalidQueueCapacity
  deriving DecidableEq

structure LocaleLoadReport where
  loadedAssets : Nat
  skippedAssets : Nat
  skippedTexts : Nat
  locales : Nat

structure AdvanceReport where
  appliedTexts : Nat
  droppedTexts : Nat
  removedOverrides : Nat
  languageChanged : Bool
  unknownLanguage : Bool

structure RawLocale where
  identifier : String
  displayName : Option String
  texts : SortedMap String JsonValue

structure Locale where
  displayName : String
  texts : SortedMap String Nat

structure RuntimeOverride where
  owner : OwnerId
  sequence : Fin (2 ^ 64)
  text : Nat

namespace Localization

inductive Command where
  | set (owner : OwnerId) (identifier language text : String)
  | setLanguage (language : String)
  | cleanup (owner : OwnerId)
  deriving DecidableEq

structure Queue where
  capacity : Nat
  commands : List Command

def validateCString (value : String) : Except LocalizationError Unit :=
  if '\x00' ∈ value.toList then .error .interiorNul else .ok ()

end Localization

open Nexus.Localization

structure LocalizationService where
  locales : SortedMap String Locale
  arena : List String
  overrides : SortedMap String (SortedMap String (List RuntimeOverride))
  activeLanguage : Option String
  requestedLanguage : String
  nextSequence : Fin (2 ^ 64)
  queue : Queue

namespace LocalizationService

def new (defaultLanguage : String) (queueCapacity : Nat) :
    Except LocalizationError LocalizationService := do
  validateCString defaultLanguage
  if queueCapacity = 0 then .error .invalidQueueCapacity
  else return ⟨.empty, [], .empty, none, defaultLanguage, 0, ⟨queueCapacity, []⟩⟩

def push (command : Command) : Fallible LocalizationService LocalizationError Unit :=
  fun service =>
    if service.queue.capacity ≤ service.queue.commands.length then (.error .queueFull, service)
    else
      (.ok (), { service with
        queue := { service.queue with commands := service.queue.commands ++ [command] } })

def set (owner : OwnerId) (identifier language text : String) :
    Fallible LocalizationService LocalizationError Unit := do
  ofExcept id (validateCString identifier)
  ofExcept id (validateCString language)
  ofExcept id (validateCString text)
  push (.set owner identifier language text)

def setLanguage (language : String) : Fallible LocalizationService LocalizationError Unit := do
  ofExcept id (validateCString language)
  push (.setLanguage language)

def queueCleanup (owner : OwnerId) : Fallible LocalizationService LocalizationError Unit :=
  push (.cleanup owner)

def gameLanguage : Nat → Option String
  | 0 => some "en"
  | 1 => some "kr"
  | 2 => some "fr"
  | 3 => some "de"
  | 4 => some "es"
  | 5 => some "cn"
  | _ => none

def setGameLanguage (language : Nat) : Fallible LocalizationService LocalizationError Bool :=
  match gameLanguage language with
  | none => pure false
  | some identifier => do
    setLanguage identifier
    return true

def resolveLanguage (service : LocalizationService) (requested : String) : Option String :=
  if (service.locales.get? requested).isSome then some requested
  else
    (service.locales.toList.find? fun item => item.2.displayName = requested).map Prod.fst

def resolveRequestedLanguage (service : LocalizationService) : LocalizationService :=
  { service with
    activeLanguage := ((service.resolveLanguage service.requestedLanguage).or
      (if (service.locales.get? "en").isSome then some "en" else none)).or
        (service.locales.toList.head?.map Prod.fst) }

def retainCString (text : String) : Fallible (List String) LocalizationError Nat := fun arena =>
  match validateCString text with
  | .error error => (.error error, arena)
  | .ok () => (.ok arena.length, arena ++ [text])

def mergeText (merged : Locale × Nat) (item : String × JsonValue) :
    Fallible (List String) LocaleSourceError (Locale × Nat) :=
  match item.2.asStr with
  | none => pure (merged.1, merged.2 + 1)
  | some text =>
    match validateCString text with
    | .error _ => pure (merged.1, merged.2 + 1)
    | .ok () => do
      let index ← mapError (fun _ => .assetUnreadable) (retainCString text)
      return ({ merged.1 with texts := merged.1.texts.put item.1 index }, merged.2)

def usableName (displayName : Option String) : Option String :=
  displayName.filter fun name => name ≠ "" ∧ (validateCString name).isOk

def accepted (raw : RawLocale) : Bool :=
  raw.identifier ≠ "" ∧ (validateCString raw.identifier).isOk

def mergeLocale (locale : Locale) (displayName : Option String) : Locale :=
  if locale.displayName = "" then
    { locale with displayName := (usableName displayName).getD locale.displayName }
  else locale

def mergeAsset (fromSlice : ByteArray → Option RawLocale)
    (loading : SortedMap String Locale × LocaleLoadReport) (asset : ByteArray) :
    Fallible (List String) LocaleSourceError (SortedMap String Locale × LocaleLoadReport) :=
  match (fromSlice asset).filter accepted with
  | none => pure (loading.1, { loading.2 with skippedAssets := loading.2.skippedAssets + 1 })
  | some raw => do
    let locale := mergeLocale ((loading.1.get? raw.identifier).getD ⟨"", .empty⟩) raw.displayName
    let (locale, skipped) ←
      raw.texts.toList.foldlM mergeText (locale, loading.2.skippedTexts)
    return (loading.1.put raw.identifier locale,
      { loading.2 with skippedTexts := skipped, loadedAssets := loading.2.loadedAssets + 1 })

def nameLocale (identifier : String) (locale : Locale) : Locale :=
  if locale.displayName = "" then { locale with displayName := identifier } else locale

def reload (fromSlice : ByteArray → Option RawLocale)
    (load : Except LocaleSourceError (List ByteArray)) :
    Fallible LocalizationService LocaleSourceError LocaleLoadReport := do
  let assets ← ofExcept id load
  let (locales, report) ← zoom arena (fun arena service => { service with arena })
    (assets.foldlM (mergeAsset fromSlice) (.empty, ⟨0, 0, 0, 0⟩))
  modify fun service =>
    { service with locales := locales.mapEntries nameLocale }.resolveRequestedLanguage
  return { report with locales := locales.toList.length }

/-- `u64::saturating_add` of one. -/
def saturatingSucc (n : Fin (2 ^ 64)) : Fin (2 ^ 64) :=
  if h : n.val + 1 < 2 ^ 64 then ⟨n + 1, h⟩ else n

def overridesOf (service : LocalizationService) (language identifier : String) :
    List RuntimeOverride :=
  ((service.overrides.get? language).bind fun texts => texts.get? identifier).getD []

def applySet (owner : OwnerId) (identifier language text : String) (service : LocalizationService)
    (report : AdvanceReport) : LocalizationService × AdvanceReport :=
  match retainCString text service.arena with
  | (.error _, _) => (service, { report with droppedTexts := report.droppedTexts + 1 })
  | (.ok index, arena) =>
    let sequence := saturatingSucc service.nextSequence
    let kept := (service.overridesOf language identifier).filter fun entry => entry.owner ≠ owner
    ({ service with
        arena
        nextSequence := sequence
        overrides := service.overrides.put language
          (((service.overrides.get? language).getD .empty).put identifier
            (kept ++ [⟨owner, sequence, index⟩])) },
      { report with appliedTexts := report.appliedTexts + 1 })

def withoutOwner (owner : OwnerId) (entries : List RuntimeOverride) : List RuntimeOverride :=
  entries.filter fun entry => entry.owner ≠ owner

def countOverrides (overrides : SortedMap String (SortedMap String (List RuntimeOverride))) : Nat :=
  overrides.total fun texts => texts.total List.length

def applyCleanup (owner : OwnerId) (service : LocalizationService) (report : AdvanceReport) :
    LocalizationService × AdvanceReport :=
  let overrides := (service.overrides.mapValues fun texts =>
    (texts.mapValues (withoutOwner owner)).filter fun _ entries => !entries.isEmpty).filter
      fun _ texts => !texts.toList.isEmpty
  ({ service with overrides },
    { report with removedOverrides := report.removedOverrides +
        (countOverrides service.overrides - countOverrides overrides) })

def applyLanguage (language : String) (service : LocalizationService) (report : AdvanceReport) :
    LocalizationService × AdvanceReport :=
  match service.resolveLanguage language with
  | some resolved =>
    ({ service with requestedLanguage := language, activeLanguage := some resolved },
      { report with languageChanged := service.activeLanguage ≠ some resolved })
  | none =>
    ({ service with requestedLanguage := language }, { report with unknownLanguage := true })

def apply (state : LocalizationService × AdvanceReport) :
    Command → LocalizationService × AdvanceReport
  | .set owner identifier language text =>
    if (state.1.locales.get? language).isSome then
      applySet owner identifier language text state.1 state.2
    else (state.1, { state.2 with droppedTexts := state.2.droppedTexts + 1 })
  | .setLanguage language => applyLanguage language state.1 state.2
  | .cleanup owner => applyCleanup owner state.1 state.2

def advance (service : LocalizationService) : LocalizationService × AdvanceReport :=
  service.queue.commands.foldl apply
    ({ service with queue := { service.queue with commands := [] } }, ⟨0, 0, 0, false, false⟩)

def cleanupOwner (owner : OwnerId) :
    Fallible LocalizationService LocalizationError AdvanceReport := do
  queueCleanup owner
  fun service => (.ok service.advance.2, service.advance.1)

def newer (best : Option RuntimeOverride) (entry : RuntimeOverride) : Option RuntimeOverride :=
  match best with
  | none => some entry
  | some found => if entry.sequence < found.sequence then some found else some entry

def latestOverride (entries : List RuntimeOverride) : Option RuntimeOverride :=
  entries.foldl newer none

def lookup (service : LocalizationService) (language identifier : String) : Option String := do
  let locale ← service.locales.get? language
  let index ← ((latestOverride (service.overridesOf language identifier)).map
    RuntimeOverride.text).or (locale.texts.get? identifier)
  service.arena[index]?

/-- The text of an identifier in a language, in the active one or in English, or the identifier. -/
def translate (service : LocalizationService) (identifier : ByteArray)
    (language : Option ByteArray) : ByteArray :=
  match String.fromUTF8? identifier with
  | none => identifier
  | some identifierText =>
    let requested := (language.bind String.fromUTF8?).bind fun language =>
      service.lookup language identifierText
    let active := service.activeLanguage.bind fun language => service.lookup language identifierText
    let english := if service.activeLanguage ≠ some "en" then service.lookup "en" identifierText
      else none
    (((requested.or active).or english).map String.toUTF8).getD identifier

def identifiersOf (service : LocalizationService) (language : String) (locale : Locale) :
    List String :=
  ((locale.texts.toList.map Prod.fst).toFinset ∪
    (((service.overrides.get? language).getD .empty).toList.map Prod.fst).toFinset).sort (· ≤ ·)

def allTexts (service : LocalizationService) : List String :=
  service.locales.toList.flatMap fun item =>
    (service.identifiersOf item.1 item.2).filterMap (service.lookup item.1)

end LocalizationService

end Nexus
