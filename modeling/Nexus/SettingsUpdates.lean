import Nexus.SettingsMoves

namespace Nexus.Settings

namespace SettingsWorld

/-- The in-memory document and the file show the last update of every key that was saved. -/
def Shown (world : SettingsWorld) : Prop :=
  ∀ key effect, world.settled key = some effect → entry world.store.value key = effect ∧
    ∃ document, world.store.file = .written document ∧ entry document key = effect

/-- A document that a load puts in place has the entries of the one in memory under the keys whose
last update was saved. -/
def Agrees (world : SettingsWorld) : SettingsAction → Prop
  | .putInPlace index => ∀ document, world.loads[index]? = some document → ∀ key,
      world.settled key ≠ none → entry document key = entry world.store.value key
  | _ => True

section Steps

variable {text : DocumentText} {world : SettingsWorld} {key : String} {effect : Option JsonValue}
  {write : Except SettingsError Unit} {store : SettingsStore}

theorem Shown.updated (h : Shown world)
    (hupdated : SettingsStore.Updated key effect write world.store store) :
    Shown (settle key write { world with store }) := by
  intro other shown hshown
  have hentry := hupdated.entries other
  by_cases hkey : other = key
  · subst hkey
    rw [if_pos rfl] at hentry
    have hsettled : Function.update world.settled other _ other = some shown := hshown
    rw [Function.update_self] at hsettled
    cases write with
    | error => cases hsettled
    | ok done =>
      cases hsettled
      exact ⟨rfl, store.value, hupdated.saved done rfl, rfl⟩
  · rw [if_neg hkey] at hentry
    have hsettled : Function.update world.settled key _ other = some shown := hshown
    rw [Function.update_of_ne hkey] at hsettled
    obtain ⟨hmemory, document, hfile, hdocument⟩ := h other shown hsettled
    refine ⟨hentry.trans hmemory, ?_⟩
    cases write with
    | ok done => exact ⟨store.value, hupdated.saved done rfl, hentry.trans hmemory⟩
    | error error => exact ⟨document, (hupdated.unsaved error rfl).trans hfile, hdocument⟩

theorem Shown.persist (h : Shown world) (write : Except SettingsError Unit) :
    Shown { world with store := world.store.persist write } := by
  cases write with
  | error => exact h
  | ok =>
    intro key effect hsettled
    obtain ⟨hmemory, _⟩ := h key effect hsettled
    exact ⟨hmemory, world.store.value, rfl, hmemory⟩

variable {next : SettingsWorld}

theorem Shown.putInPlace_iff (h : Shown world) {index : Nat}
    (hstep : world.step text (.putInPlace index) = some next) :
    Shown next ↔ Agrees world (.putInPlace index) := by
  obtain ⟨document, hdocument, rfl⟩ := Option.map_eq_some_iff.mp hstep
  constructor
  · intro hnext other hother key hkey
    rw [hdocument] at hother
    cases hother
    obtain ⟨effect, heffect⟩ := Option.ne_none_iff_exists'.mp hkey
    exact (hnext key effect heffect).1.trans (h key effect heffect).1.symm
  · intro hagrees key effect hsettled
    obtain ⟨hmemory, hfile⟩ := h key effect hsettled
    refine ⟨?_, hfile⟩
    have hsame := hagrees document hdocument key (by rw [hsettled]; exact Option.some_ne_none _)
    exact hsame.trans hmemory

variable {action : SettingsAction}

theorem Shown.step (h : Shown world) (hstep : world.step text action = some next)
    (hagrees : Agrees world action) : Shown next := by
  have hmove := step_move hstep
  cases hmove with
  | placed => exact (h.putInPlace_iff hstep).mpr hagrees
  | saved write => exact h.persist write
  | updated _ _ _ _ _ _ _ hupdated | removed _ _ _ hupdated =>
    exact h.updated hupdated
  | _ => exact h

end Steps

def scaleText : List UInt8 :=
  [0x7b, 0x0a, 0x09, 0x22, 0x53, 0x63, 0x61, 0x6c, 0x65, 0x22, 0x3a, 0x20, 0x31, 0x0a, 0x7d, 0x0a]

def one : JsonValue := .number (.posInt 1)

def sampleText : DocumentText where
  print document := if (entry document "Scale").isSome then scaleText else [0x7b, 0x7d, 0x0a]
  parse bytes :=
    if bytes = scaleText then .ok (.object [("Scale", one)])
    else if bytes = [0x7b, 0x7d] ∨ bytes = [0x7b, 0x7d, 0x0a] then .ok (.object [])
    else .error (.parse "Syntax" 1 1)

end SettingsWorld

end Nexus.Settings
