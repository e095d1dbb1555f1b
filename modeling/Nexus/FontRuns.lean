import Nexus.FontManager
import Mathlib.Data.List.Induction

namespace Nexus

inductive FontOp where
  | registerMemory (owner : OwnerId) (identifier : String) (size : FloatBits) (data : List UInt8)
      (config : FontConfig) (callback : Option FontCallback)
  | replaceOwnerMemory (owner : OwnerId) (requests : List FontMemoryReplacement)
  | get (owner : OwnerId) (identifier : String) (callback : FontCallback)
  | release (identifier : String) (subscription : Nat)
  | cleanupOwnerCallbacks (owner : OwnerId)
  | cleanupOwnerResources (owner : OwnerId)
  | cleanupOwner (owner : OwnerId)
  | resize (identifier : String) (size : FloatBits)
  | reload
  | advance (rebuild : List FontBuildRequest → RebuildResult)

namespace FontOp

def step (manager : FontManager) : FontOp → FontManager
  | registerMemory owner identifier size data config callback =>
    (FontManager.registerMemory owner identifier size data config callback manager).2
  | replaceOwnerMemory owner requests => (FontManager.replaceOwnerMemory owner requests manager).2
  | get owner identifier callback => (FontManager.get owner identifier callback manager).2
  | release identifier subscription => (FontManager.release identifier subscription manager).2
  | cleanupOwnerCallbacks owner => (FontManager.cleanupOwnerCallbacks owner manager).2
  | cleanupOwnerResources owner => (FontManager.cleanupOwnerResources owner manager).2
  | cleanupOwner owner => (FontManager.cleanupOwner owner manager).2
  | resize identifier size => (FontManager.resize identifier size manager).2
  | reload => FontManager.reload manager
  | advance rebuild => (FontManager.advance rebuild manager).2

def run (ops : List FontOp) : FontManager := ops.foldl step .new

@[simp] theorem run_append (ops : List FontOp) (op : FontOp) :
    run (ops ++ [op]) = op.step (run ops) := by
  unfold run
  rw [List.foldl_append]
  rfl

end FontOp

namespace FontManager

def Synced (registry : List FontEntry) : Prop :=
  ∀ entry ∈ registry, ∀ subscriber ∈ entry.subscribers, subscriber.last = some entry.handle

def Cleared (registry : List FontEntry) : Prop :=
  ∀ entry ∈ registry, ∀ subscriber ∈ entry.subscribers, subscriber.last = some none

variable {f : FontEntry → FontEntry} {registry : List FontEntry}

theorem mem_updateFirst {identifier : String} {entry : FontEntry}
    (h : entry ∈ updateFirst identifier f registry) :
    entry ∈ registry ∨ ∃ old, (registry.find? fun item => item.identifier = identifier) = some old ∧
      entry = f old := by
  induction registry with
  | nil => cases h
  | cons first _ ih =>
    simp only [updateFirst] at h
    by_cases hid : first.identifier = identifier
    · rw [if_pos hid] at h
      rcases List.mem_cons.mp h with heq | hmem
      · refine Or.inr ⟨first, ?_, heq⟩
        rw [List.find?_cons_of_pos (by simpa using hid)]
      · exact Or.inl (List.mem_cons_of_mem _ hmem)
    · rw [if_neg hid] at h
      rcases List.mem_cons.mp h with heq | hmem
      · exact Or.inl (heq ▸ List.mem_cons_self ..)
      · rcases ih hmem with hold | ⟨old, hfind, heq⟩
        · exact Or.inl (List.mem_cons_of_mem _ hold)
        · refine Or.inr ⟨old, ?_, heq⟩
          rw [List.find?_cons_of_neg (by simpa using hid)]
          exact hfind

theorem Synced.updateFirst (h : Synced registry) {identifier : String} (hf : ∀ old, old ∈ registry →
      (registry.find? fun item => item.identifier = identifier) = some old →
      ∀ subscriber ∈ (f old).subscribers, subscriber.last = some (f old).handle) :
    Synced (updateFirst identifier f registry) := by
  intro entry hmem subscriber hsub
  rcases mem_updateFirst hmem with hold | ⟨old, hfind, rfl⟩
  · exact h entry hold subscriber hsub
  · exact hf old (List.mem_of_find?_eq_some hfind) hfind subscriber hsub

theorem Synced.map (h : Synced registry) (hhandle : ∀ entry, (f entry).handle = entry.handle)
    (hsubscribers : ∀ entry, ∀ subscriber ∈ (f entry).subscribers, subscriber ∈ entry.subscribers) :
    Synced (registry.map f) := by
  intro entry hmem subscriber hsub
  obtain ⟨old, hold, rfl⟩ := List.mem_map.mp hmem
  rw [hhandle]
  exact h old hold subscriber (hsubscribers old subscriber hsub)

theorem Synced.subset {smaller : List FontEntry} (h : Synced registry)
    (hs : ∀ entry ∈ smaller, entry ∈ registry) : Synced smaller :=
  fun entry hmem => h entry (hs entry hmem)

theorem last_notify {entry : FontEntry} {font : Option FontHandle} {subscriber : Subscriber}
    (h : subscriber ∈ (entry.notify font).2.subscribers) : subscriber.last = some font := by
  obtain ⟨old, _, rfl⟩ := List.mem_map.mp h
  exact Subscriber.last_invoke old font

theorem synced_notify (registry : List FontEntry) : Synced (notifyCallbacks false registry).2 := by
  intro entry hmem subscriber hsub
  obtain ⟨_, _, rfl⟩ := List.mem_map.mp hmem
  exact last_notify hsub

theorem advance_cases (rebuild : List FontBuildRequest → RebuildResult) (manager : FontManager) :
    (manager.atlasBuilt = true ∧ advance rebuild manager = (.ok ⟨false, 0⟩, manager)) ∨
    (manager.atlasBuilt = false ∧
      (advance rebuild manager).2.rebuilds = manager.rebuilds ++ [invalidated manager.registry] ∧
      ((∃ error, (advance rebuild manager).1 = .error error ∧
          (advance rebuild manager).2.registry = invalidated manager.registry ∧
          (advance rebuild manager).2.atlasBuilt = false) ∨
        (∃ report, (advance rebuild manager).1 = .ok report) ∧
          Synced (advance rebuild manager).2.registry)) := by
  unfold advance
  rcases hbuilt : manager.atlasBuilt
  · refine Or.inr ⟨rfl, ?_⟩
    simp only [Bool.false_eq_true, if_false]
    split
    next => exact ⟨rfl, Or.inl ⟨_, rfl, rfl, rfl⟩⟩
    next => exact ⟨rfl, Or.inl ⟨_, rfl, rfl, rfl⟩⟩
    next =>
      split
      next => exact ⟨rfl, Or.inl ⟨_, rfl, rfl, rfl⟩⟩
      next => exact ⟨rfl, Or.inr ⟨⟨_, rfl⟩, synced_notify _⟩⟩
  · exact Or.inl ⟨rfl, rfl⟩

end FontManager

namespace FontOp

open FontManager

variable {manager : FontManager}

def quietCallback : FontCallback := ⟨fun _ => false⟩

def firstCallback : List FontOp :=
  [.registerMemory ⟨1, 1⟩ "f" 0x41800000 [1] .default (some quietCallback)]

end FontOp

end Nexus
