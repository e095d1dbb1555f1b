import Nexus.DirectoryReconciliation

namespace Nexus

namespace AddonManager

open Fallible

variable {Path : Type} [DecidableEq Path] [HostPath Path]

/-- A rename that moves the whole entry, with every owner that pointed to it. -/
structure Moved (source : Path) (target : DiscoveredDll Path) (w next : AddonManager Path) :
    Prop where
  directory : next.directory = w.directory
  children : w.directory.containsDirectChild target.path = true
  placed : ∃ e, next.entries.get? (pathKey target.path) = some e ∧ e.discovered = target
  entry : ∀ e, w.entries.get? (pathKey source) = some e →
    next.entries.get? (pathKey target.path) = some { e with discovered := target, present := true }
  known : pathKey source ≠ pathKey target.path → ∃ e, w.entries.get? (pathKey source) = some e
  fresh : pathKey source ≠ pathKey target.path → w.entries.get? (pathKey target.path) = none
  left : pathKey source ≠ pathKey target.path → next.entries.get? (pathKey source) = none
  others : ∀ key, key ≠ pathKey source → key ≠ pathKey target.path →
    next.entries.get? key = w.entries.get? key
  owners : ∀ owner, next.ownerPaths owner = (w.ownerPaths owner).map fun key =>
    if key = pathKey source then pathKey target.path else key

theorem applyRenamed_cases (source : Path) (target : DiscoveredDll Path) (w : AddonManager Path) :
    (∃ error, applyRenamed source target w = (.error error, w)) ∨
      ∃ impact next, applyRenamed source target w = (.ok impact, next) ∧
        Moved source target w next := by
  unfold applyRenamed
  rw [read_bind]
  by_cases hchildren : w.directory.containsDirectChild source = true ∧
      w.directory.containsDirectChild target.path = true
  · rw [ensure_true hchildren, pure_bind']
    dsimp only
    by_cases hkeys : pathKey source = pathKey target.path
    · rw [if_pos hkeys]
      obtain ⟨impact, next, hrun, hchanges, _⟩ := applyUpsert_ok hchildren.2
      have hentry := hchanges.entries (pathKey target.path)
      rw [if_pos rfl] at hentry
      refine Or.inr ⟨impact, next, hrun, hchanges.directory, hchildren.2, ⟨_, hentry, ?_⟩,
        fun e he => ?_, fun hne => absurd hkeys hne, fun hne => absurd hkeys hne,
        fun hne => absurd hkeys hne, fun key _ hkey => ?_, fun owner => ?_⟩
      · cases w.entries.get? (pathKey target.path) <;> rfl
      · rw [hkeys] at he
        rw [he] at hentry
        exact hentry
      · rw [hchanges.entries, if_neg hkey]
      · rw [hchanges.ownerPaths]
        have hid : (fun key => if key = pathKey source then pathKey target.path else key) = id := by
          funext key
          split
          next heq => rw [heq, hkeys]; rfl
          next => rfl
        rw [hid, Option.map_id]
        rfl
    · rw [if_neg hkeys]
      rcases hnew : w.entries.get? (pathKey target.path) with _ | other
      · rcases hold : w.entries.get? (pathKey source) with _ | e
        · refine Or.inl ⟨.unknownPath, ?_⟩
          have hread : AddonManager.entry (pathKey source) w = (.error .unknownPath, w) := by
            rw [AddonManager.entry, read_bind, hold, require_none, fail_apply]
          rw [ensure_true (by rw [Option.isNone_none]), pure_bind', bind_of_error hread]
        · have hread : AddonManager.entry (pathKey source) w = (.ok e, w) := by
            rw [AddonManager.entry, read_bind, hold, require_some, pure_apply]
          rw [ensure_true (by rw [Option.isNone_none]), pure_bind', bind_of_ok hread]
          have hget : ∀ key, ((w.entries.erase (pathKey source)).put (pathKey target.path)
              { e with discovered := target, present := true }).get? key =
              if key = pathKey target.path then
                some { e with discovered := target, present := true }
              else if key = pathKey source then none else w.entries.get? key := by
            intro key
            rw [SortedMap.get?_put, SortedMap.get?_erase]
          have hplaced := hget (pathKey target.path)
          rw [if_pos rfl] at hplaced
          refine Or.inr ⟨_, _, rfl, rfl, hchildren.2, ⟨_, hplaced, rfl⟩, fun other hother => ?_,
            fun _ => ⟨e, hold⟩, fun _ => hnew, fun _ => ?_, fun key hsource htarget => ?_,
            fun owner => rfl⟩
          · rw [hold] at hother
            cases hother
            exact hplaced
          · have hleft := hget (pathKey source)
            rw [if_neg hkeys, if_pos rfl] at hleft
            exact hleft
          · have hsame := hget key
            rw [if_neg htarget, if_neg hsource] at hsame
            exact hsame
      · refine Or.inl ⟨.discovery .duplicateEntry, ?_⟩
        rw [ensure_false (by rw [Option.isNone_some]; exact Bool.false_ne_true), fail_bind,
          fail_apply]
  · rw [ensure_false hchildren, fail_bind]
    exact Or.inl ⟨_, rfl⟩

namespace Placed

variable {w next : AddonManager Path}

theorem changes (h : Placed w) {key : String} {changed : Entry Path}
    (hchanges : Changes w next key changed) (hkey : pathKey changed.discovered.path = key)
    (hchild : w.directory.containsDirectChild changed.discovered.path = true) : Placed next := by
  refine ⟨fun other e he => ?_, fun other e he => ?_⟩
  · rw [hchanges.entries] at he
    split at he
    next heq =>
      cases he
      rw [hkey, heq]
    next => exact h.key other e he
  · rw [hchanges.directory]
    rw [hchanges.entries] at he
    split at he
    next =>
      cases he
      exact hchild
    next => exact h.child other e he

theorem upsert (h : Placed w) (candidate : DiscoveredDll Path) :
    Placed (applyUpsert candidate w).2 := by
  by_cases hchild : w.directory.containsDirectChild candidate.path = true
  · obtain ⟨_, _, hrun, hchanges, _⟩ := applyUpsert_ok hchild
    rw [hrun]
    have hsame : (upserted candidate (w.entries.get? (pathKey candidate.path))).discovered =
        candidate := by
      cases w.entries.get? (pathKey candidate.path) <;> rfl
    exact h.changes hchanges (by rw [hsame]) (by rw [hsame]; exact hchild)
  · unfold applyUpsert
    rw [read_bind, ensure_false hchild, fail_bind]
    exact h

theorem removal (h : Placed w) (path : Path) : Placed (applyRemoved path w).2 := by
  by_cases hchild : w.directory.containsDirectChild path = true
  · rcases hentry : w.entries.get? (pathKey path) with _ | e
    · have hread : entry (pathKey path) w = (.error .unknownPath, w) := by
        rw [entry, read_bind, hentry, require_none, fail_apply]
      unfold applyRemoved
      rw [read_bind, ensure_true hchild, pure_bind']
      dsimp only
      rw [bind_of_error hread]
      exact h
    · by_cases hpresent : e.present = true
      · obtain ⟨_, _, hrun, hchanges, _⟩ := applyRemoved_ok hchild hentry hpresent
        rw [hrun]
        exact h.changes hchanges (h.key _ e hentry) (h.child _ e hentry)
      · have hread : entry (pathKey path) w = (.ok e, w) := by
          rw [entry, read_bind, hentry, require_some, pure_apply]
        unfold applyRemoved
        rw [read_bind, ensure_true hchild, pure_bind']
        dsimp only
        rw [bind_of_ok hread, if_pos hpresent]
        exact h
  · unfold applyRemoved
    rw [read_bind, ensure_false hchild, fail_bind]
    exact h

theorem rename (h : Placed w) (source : Path) (target : DiscoveredDll Path) :
    Placed (applyRenamed source target w).2 := by
  rcases applyRenamed_cases source target w with ⟨_, hrun⟩ | ⟨_, next, hrun, hmoved⟩
  · rw [hrun]
    exact h
  · rw [hrun]
    obtain ⟨placed, hplaced, hsame⟩ := hmoved.placed
    have hcases : ∀ key e, next.entries.get? key = some e →
        key = pathKey target.path ∧ e.discovered = target ∨ w.entries.get? key = some e := by
      intro key e he
      by_cases htarget : key = pathKey target.path
      · rw [htarget, hplaced] at he
        cases he
        exact Or.inl ⟨htarget, hsame⟩
      · by_cases hsource : key = pathKey source
        · subst hsource
          rw [hmoved.left htarget] at he
          cases he
        · exact Or.inr (hmoved.others key hsource htarget ▸ he)
    refine ⟨fun key e he => ?_, fun key e he => ?_⟩
    · rcases hcases key e he with ⟨hkey, htarget⟩ | hold
      · rw [htarget, hkey]
      · exact h.key key e hold
    · change next.directory.containsDirectChild e.discovered.path = true
      rw [hmoved.directory]
      rcases hcases key e he with ⟨_, htarget⟩ | hold
      · rw [htarget]
        exact hmoved.children
      · exact h.child key e hold

theorem bind {α β : Type} {x : ManagerM Path α} {f : α → ManagerM Path β}
    (hx : ∀ w, Placed w → Placed (x w).2) (hf : ∀ a w, Placed w → Placed (f a w).2)
    (h : Placed w) : Placed ((x >>= f) w).2 := by
  have hplaced := hx w h
  rw [bind_apply]
  rcases hrun : x w with ⟨_ | a, next⟩
  · rw [hrun] at hplaced
    exact hplaced
  · rw [hrun] at hplaced
    exact hf a next hplaced

theorem each {β : Type} {f : β → ManagerM Path (DirectoryImpact Path)}
    (hf : ∀ x w, Placed w → Placed (f x w).2) (items : List β) :
    ∀ w, Placed w → Placed (applyEach f items w).2 := by
  induction items with
  | nil => exact fun _ h => h
  | cons x _ ih => exact fun _ h => h.bind (hf x) fun _ _ h => h.bind ih fun _ _ h => h

theorem refresh (h : Placed w) (scan : Call (Except DiscoveryError (List (DiscoveredDll Path)))) :
    Placed (refreshDiscovery scan w).2 := by
  rcases scan with (error | found) | _
  · exact h
  · refine h.bind (fun _ h => h) fun v w h => h.bind (fun w h => ?_) fun scanned w h =>
      h.bind (each (fun x _ h => h.upsert x) scanned) fun _ w h => h.bind (fun _ h => h)
        fun _ w h => h.bind (each (fun x _ h => h.removal x) _) fun _ _ h => h
    cases normalizeDiscovery v.directory found with
    | error | ok => exact h
  · exact h.located (.of_entries rfl rfl)

theorem event (h : Placed w) (event : DirectoryEvent Path)
    (scan : Call (Except DiscoveryError (List (DiscoveredDll Path)))) :
    Placed (applyDirectoryEvent event scan w).2 := by
  cases event with
  | upsert candidate => exact h.bind (fun _ h => h.upsert candidate) fun _ _ h => h
  | removed path => exact h.bind (fun _ h => h.removal path) fun _ _ h => h
  | renamed source target => exact h.bind (fun _ h => h.rename source target) fun _ _ h => h
  | rescan => exact h.refresh scan

end Placed

end AddonManager

open AddonManager

inductive ManagerOp (Path : Type) where
  | inspect (path : Path) (request : ActivationRequest) (answers : InspectAnswers)
  | activate (owner : OwnerToken) (callback : Call Unit)
  | requestUnload (owner : OwnerToken) (reason : UnloadReason)
  | drain (owner : OwnerToken) (answers : DrainAnswers)
  | invokeNativeUnload (owner : OwnerToken) (callback : Call Unit)
  | finishUnload (owner : OwnerToken) (freeLibrary : Call (Except PlatformError Unit))
  | retryRelease (path : Path) (freeLibrary : Call (Except PlatformError Unit))
  | cleanupActivationFailure (owner : OwnerToken) (answers : FailureCleanupAnswers)
  | hotReload (owner : OwnerToken) (answers : ReloadAnswers)
  | setEnabled (signature : Nat) (enabled : Bool)
  | finishStartup
  | takeDiagnostics
  | applyDirectoryEvent (event : DirectoryEvent Path)
      (scan : Call (Except DiscoveryError (List (DiscoveredDll Path))))
  | refreshDiscovery (scan : Call (Except DiscoveryError (List (DiscoveredDll Path))))
  | entered (gate : GateRef)
  | left (gate : GateRef) (count : Nat)

namespace ManagerOp

variable {Path : Type} [DecidableEq Path] [HostPath Path]

def apply (w : AddonManager Path) : ManagerOp Path → AddonManager Path
  | .inspect path request answers => (AddonManager.inspect path request answers w).2
  | .activate owner callback => (AddonManager.activate owner callback w).2
  | .requestUnload owner reason => (AddonManager.requestUnload owner reason w).2
  | .drain owner answers => (AddonManager.drain owner answers w).2
  | .invokeNativeUnload owner callback => (AddonManager.invokeNativeUnload owner callback w).2
  | .finishUnload owner freeLibrary => (AddonManager.finishUnload owner freeLibrary w).2
  | .retryRelease path freeLibrary => (AddonManager.retryRelease path freeLibrary w).2
  | .cleanupActivationFailure owner answers =>
    (AddonManager.cleanupActivationFailure owner answers w).2
  | .hotReload owner answers => (AddonManager.hotReload owner answers w).2
  | .setEnabled signature enabled => (AddonManager.setEnabled signature enabled w).2
  | .finishStartup => (AddonManager.finishStartup w).2
  | .takeDiagnostics => { w with diagnostics := { w.diagnostics with entries := [] } }
  | .applyDirectoryEvent event scan => (AddonManager.applyDirectoryEvent event scan w).2
  | .refreshDiscovery scan => (AddonManager.refreshDiscovery scan w).2
  | .entered gate => w.withCore (w.toManagerCore.withShared (w.toShared.enterGate gate).2)
  | .left gate count => w.withCore (w.toManagerCore.withShared (w.toShared.leaveGate gate count))

def run (w : AddonManager Path) (ops : List (ManagerOp Path)) : AddonManager Path :=
  ops.foldl apply w

theorem apply_placed {w : AddonManager Path} (h : Placed w) (op : ManagerOp Path) :
    Placed (apply w op) := by
  cases op with
  | inspect => exact h.located ((Locates.inspect ..).follows w)
  | activate => exact h.located ((Locates.activate ..).follows w)
  | requestUnload => exact h.located ((Locates.requestUnload ..).follows w)
  | drain => exact h.located ((Locates.drain ..).follows w)
  | invokeNativeUnload => exact h.located ((Locates.invokeNativeUnload ..).follows w)
  | finishUnload => exact h.located ((Locates.finishUnload ..).follows w)
  | retryRelease => exact h.located ((Locates.retryRelease ..).follows w)
  | cleanupActivationFailure =>
    exact h.located ((Locates.cleanupActivationFailure ..).follows w)
  | hotReload => exact h.located ((Locates.hotReload ..).follows w)
  | setEnabled => exact h.located ((Locates.setEnabled ..).follows w)
  | applyDirectoryEvent event scan => exact h.event event scan
  | refreshDiscovery scan => exact h.refresh scan
  | _ => exact h.located (.of_entries rfl rfl)

theorem run_placed {w : AddonManager Path} (h : Placed w) (ops : List (ManagerOp Path)) :
    Placed (run w ops) := by
  unfold run
  induction ops generalizing w with
  | nil => exact h
  | cons op _ ih => exact ih (apply_placed h op)

/-- In every state of a manager, a scan that the normalization accepts reconciles the entries with
it and changes nothing when it is taken again, and a rename either fails without a change or moves
the whole entry with its owners. -/
theorem directory_reconciled (apiTablesPopulated : Bool) (directory : AddonDirectory Path)
    (configs : AddonConfigDocument) (configAccess : ConfigAccess) (options : ManagerOptions)
    (ops : List (ManagerOp Path)) {w : AddonManager Path}
    (hrun : w = run (.new apiTablesPopulated directory configs configAccess options) ops) :
    (∀ found scanned, normalizeDiscovery w.directory found = .ok scanned →
      ∃ impacts next,
        AddonManager.refreshDiscovery (.returned (.ok found)) w = (.ok impacts, next) ∧
        Reconciled found w next impacts ∧
        ∃ again last,
          AddonManager.refreshDiscovery (.returned (.ok found)) next = (.ok again, last) ∧
          ∀ impact ∈ again, impact.kind = .unchanged) ∧
    ∀ source target scan,
      (∃ error, AddonManager.applyDirectoryEvent (.renamed source target) scan w =
        (.error error, w)) ∨
      ∃ impact next, AddonManager.applyDirectoryEvent (.renamed source target) scan w =
        (.ok [impact], next) ∧ Moved source target w next := by
  have hplaced : Placed w := by
    rw [hrun]
    refine run_placed ⟨fun key e hentry => ?_, fun key e hentry => ?_⟩ ops
    · cases hentry
    · cases hentry
  refine ⟨fun found scanned hnormal => ?_, fun source target scan => ?_⟩
  · obtain ⟨impacts, next, hrefresh, hdirectory, hreconciled, _⟩ :=
      refreshDiscovery_reconciles hplaced hnormal
    have hnext : Placed next := by
      have hkept := hplaced.refresh (.returned (.ok found))
      rw [hrefresh] at hkept
      exact hkept
    obtain ⟨again, last, hagain, _, _, hunchanged⟩ :=
      refreshDiscovery_reconciles hnext (hdirectory ▸ hnormal)
    refine ⟨impacts, next, hrefresh, hreconciled, again, last, hagain,
      hunchanged hreconciled.scanned fun key e hentry hpresent => ?_⟩
    exact (hreconciled.present key).mp ⟨e, hentry, hpresent⟩
  · rcases applyRenamed_cases source target w with
      ⟨error, hrename⟩ | ⟨impact, next, hrename, hmoved⟩
    · exact Or.inl ⟨error, Fallible.bind_of_error hrename _⟩
    · exact Or.inr ⟨impact, next, Fallible.bind_of_ok hrename _, hmoved⟩

instance componentPaths : HostPath (List String) where
  parent path := if path.isEmpty then none else some path.dropLast
  toStringLossy path := String.intercalate "\\" path
  toLowercase := String.toLower

def addonDll : DiscoveredDll (List String) where
  path := ["C:", "addons", "a.dll"]
  revision := ⟨List.replicate 16 0, rfl⟩
  byteLen := 1
  byteLen_pos := Nat.one_pos

def freshManager : AddonManager (List String) :=
  .new true ⟨["C:", "addons"]⟩ .new .writable ⟨.default, 64, 0⟩

theorem directory_reconciled_one :
    ∃ impacts next, AddonManager.refreshDiscovery (.returned (.ok [addonDll])) freshManager =
      (.ok impacts, next) ∧ Reconciled [addonDll] freshManager next impacts := by
  obtain ⟨hscans, _⟩ := directory_reconciled true ⟨["C:", "addons"]⟩ .new .writable
    ⟨.default, 64, 0⟩ [] (w := freshManager) rfl
  obtain ⟨impacts, next, hrefresh, hreconciled, _⟩ := hscans [addonDll] [addonDll] rfl
  exact ⟨impacts, next, hrefresh, hreconciled⟩

end ManagerOp

end Nexus
