import Nexus.FileSystem

namespace Nexus

inductive PlanError where
  | noSources
  | invalidLimit
  | overlappingPaths
  deriving DecidableEq

structure ReplacementPlan where
  current : String
  staged : String
  backup : String
  current_ne_staged : current ≠ staged
  current_ne_backup : current ≠ backup
  staged_ne_backup : staged ≠ backup

def ReplacementPlan.new (current staged backup : String) : Except PlanError ReplacementPlan :=
  if h : current = staged ∨ current = backup ∨ staged = backup then .error .overlappingPaths
  else
    .ok ⟨current, staged, backup, fun heq => h (Or.inl heq), fun heq => h (Or.inr (Or.inl heq)),
      fun heq => h (Or.inr (Or.inr heq))⟩

inductive CommitPlan where
  | install (destination : String)
  | replace (replacement : ReplacementPlan)

structure DownloadPlan where
  staging : String
  commit : CommitPlan

inductive ReplacementError where
  | missingStaged
  | emptyStaged
  | missingCurrent
  | backupOccupied
  | storage
  | moveCurrent
  | installFailedRolledBack
  | rollbackFailed
  deriving DecidableEq

inductive CommitError where
  | invalidStagedArtifact
  | destinationOccupied
  | storage
  | replacement
  deriving DecidableEq

def CommitError.ofReplacement : ReplacementError → CommitError
  | .missingStaged | .emptyStaged => .invalidStagedArtifact
  | _ => .replacement

inductive CommitOutcome where
  | installed
  | replaced
  deriving DecidableEq

section Commit

variable {σ : Type} (filesystem : FileSystem σ)

open Fallible

def validateStaged (staged : String) : Fallible σ ReplacementError Unit := do
  match ← mapError (fun _ => .storage) (filesystem.fileLen staged) with
  | none => fail .missingStaged
  | some 0 => fail .emptyStaged
  | some _ => pure ()

def applyReplacement (plan : ReplacementPlan) : Fallible σ ReplacementError Unit := do
  validateStaged filesystem plan.staged
  let current ← mapError (fun _ => .storage) (filesystem.fileLen plan.current)
  ensure (current.isSome = true) .missingCurrent
  let backup ← mapError (fun _ => .storage) (filesystem.fileLen plan.backup)
  ensure (backup.isNone = true) .backupOccupied
  mapError (fun _ => .moveCurrent) (filesystem.moveNoreplace plan.current plan.backup)
  match ← attempt (filesystem.moveNoreplace plan.staged plan.current) with
  | .ok () => pure ()
  | .error _ =>
    match ← attempt (filesystem.moveNoreplace plan.backup plan.current) with
    | .ok () => fail .installFailedRolledBack
    | .error _ => fail .rollbackFailed

def commitDownload (plan : DownloadPlan) : Fallible σ CommitError CommitOutcome :=
  match plan.commit with
  | .install destination => do
    mapError .ofReplacement (validateStaged filesystem plan.staging)
    let length ← mapError (fun _ => .storage) (filesystem.fileLen destination)
    ensure (length.isNone = true) .destinationOccupied
    mapError (fun _ => .storage) (filesystem.moveNoreplace plan.staging destination)
    pure .installed
  | .replace replacement => do
    mapError .ofReplacement (applyReplacement filesystem replacement)
    pure .replaced

end Commit

open Fallible

namespace ReplacementPlan

structure Distinct (plan : ReplacementPlan) (volume : Volume) : Prop where
  current_staged : volume.locate plan.current ≠ volume.locate plan.staged
  current_backup : volume.locate plan.current ≠ volume.locate plan.backup
  staged_backup : volume.locate plan.staged ≠ volume.locate plan.backup

/-- The old bytes are at one of the paths and the new bytes at another. -/
def Kept (plan : ReplacementPlan) (before now : Volume) : Prop :=
  now.at? plan.current = before.at? plan.current ∧ now.at? plan.staged = before.at? plan.staged ∨
    now.at? plan.backup = before.at? plan.current ∧
      (now.at? plan.staged = before.at? plan.staged ∨ now.at? plan.current = before.at? plan.staged)

/-- What a replacement's result says about the volume. A failed move may have left a link when
`torn`. -/
def Replaced (plan : ReplacementPlan) (torn : Prop) (before : Volume) :
    Except ReplacementError Unit → Volume → Prop
  | .ok (), after => ∃ old new, before.at? plan.current = some (.file old) ∧
      before.at? plan.staged = some (.file new) ∧ after.at? plan.current = some (.file new) ∧
      after.at? plan.backup = some (.file old)
  | .error .rollbackFailed, after => ∃ old new, before.at? plan.current = some (.file old) ∧
      before.at? plan.staged = some (.file new) ∧ after.at? plan.staged = some (.file new) ∧
      after.at? plan.backup = some (.file old)
  | .error _, after => after = before ∨ torn

theorem replaced_unchanged (plan : ReplacementPlan) (torn : Prop) (before : Volume)
    {error : ReplacementError} (h : error ≠ .rollbackFailed) :
    plan.Replaced torn before (.error error) before := by
  cases error with
  | rollbackFailed => exact absurd rfl h
  | _ => exact Or.inl rfl

end ReplacementPlan

section Stages

variable {plan : ReplacementPlan} {before : Volume} (h : plan.Distinct before)

def ReplacementPlan.preserved (plan : ReplacementPlan) (before : Volume) : Volume :=
  before.moved plan.current plan.backup

include h in
theorem distinct_preserved : plan.Distinct (plan.preserved before) :=
  ⟨h.current_staged, h.current_backup, h.staged_backup⟩

include h in
theorem preserved_backup : (plan.preserved before).at? plan.backup = before.at? plan.current :=
  Volume.at?_moved_target h.current_backup.symm

include h in
theorem preserved_staged : (plan.preserved before).at? plan.staged = before.at? plan.staged :=
  Volume.at?_moved_of_ne h.current_staged.symm h.staged_backup

theorem kept_before : plan.Kept before before := Or.inl ⟨rfl, rfl⟩

include h in
theorem kept_linked_backup : plan.Kept before (before.linked plan.current plan.backup) :=
  Or.inl ⟨Volume.at?_linked_of_ne h.current_backup, Volume.at?_linked_of_ne h.staged_backup⟩

include h in
theorem kept_preserved : plan.Kept before (plan.preserved before) :=
  Or.inr ⟨preserved_backup h, Or.inl (preserved_staged h)⟩

include h in
theorem linked_current_backup :
    ((plan.preserved before).linked plan.staged plan.current).at? plan.backup =
      before.at? plan.current := by
  rw [Volume.at?_linked_of_ne (distinct_preserved h).current_backup.symm, preserved_backup h]

include h in
theorem linked_current_staged :
    ((plan.preserved before).linked plan.staged plan.current).at? plan.staged =
      before.at? plan.staged := by
  rw [Volume.at?_linked_of_ne (distinct_preserved h).current_staged.symm, preserved_staged h]

include h in
theorem kept_linked_current :
    plan.Kept before ((plan.preserved before).linked plan.staged plan.current) :=
  Or.inr ⟨linked_current_backup h, Or.inl (linked_current_staged h)⟩

include h in
theorem installed_current :
    ((plan.preserved before).moved plan.staged plan.current).at? plan.current =
      before.at? plan.staged := by
  rw [Volume.at?_moved_target (distinct_preserved h).current_staged, preserved_staged h]

include h in
theorem installed_backup :
    ((plan.preserved before).moved plan.staged plan.current).at? plan.backup =
      before.at? plan.current := by
  rw [Volume.at?_moved_of_ne (distinct_preserved h).staged_backup.symm
    (distinct_preserved h).current_backup.symm, preserved_backup h]

include h in
theorem kept_installed :
    plan.Kept before ((plan.preserved before).moved plan.staged plan.current) :=
  Or.inr ⟨installed_backup h, Or.inr (installed_current h)⟩

include h in
theorem linked_backup_backup :
    ((plan.preserved before).linked plan.backup plan.current).at? plan.backup =
      before.at? plan.current := by
  rw [Volume.at?_linked_of_ne (distinct_preserved h).current_backup.symm, preserved_backup h]

include h in
theorem linked_backup_staged :
    ((plan.preserved before).linked plan.backup plan.current).at? plan.staged =
      before.at? plan.staged := by
  rw [Volume.at?_linked_of_ne (distinct_preserved h).current_staged.symm, preserved_staged h]

end Stages

theorem metadata_some {path : String} {volume : Volume} {length : Nat}
    (h : volume.metadata path = .ok (some length)) :
    ∃ bytes, volume.at? path = some (.file bytes) := by
  unfold Volume.metadata at h
  split at h
  · cases h
  next bytes hat => exact ⟨bytes, hat⟩
  · cases h

section Replacement

variable {filesystem : FileSystem Disk} {torn : Prop} (hlawful : filesystem.Lawful torn)

include hlawful in
theorem fileLen_ensures {K : Volume → Prop} {volume : Volume} (hvolume : K volume) (path : String)
    {ε : Type} (failure : ε) :
    (mapError (fun _ => failure) (filesystem.fileLen path)).Ensures (Disk.At K volume)
      fun result disk => match result with
      | .ok length => Disk.At K volume disk ∧ volume.metadata path = .ok length
      | .error error => Disk.At K volume disk ∧ error = failure := by
  refine Ensures.mapError (Ensures.mono (hlawful.fileLen path hvolume) (fun _ h => h) ?_)
  rintro (error | length) disk ⟨hat, hlength⟩
  · exact ⟨hat, rfl⟩
  · exact ⟨hat, hlength length rfl⟩

include hlawful in
theorem validateStaged_ensures {K : Volume → Prop} {volume : Volume} (hvolume : K volume)
    (staged : String) :
    (validateStaged filesystem staged).Ensures (Disk.At K volume) fun result disk =>
      Disk.At K volume disk ∧ result ≠ .error .rollbackFailed ∧
        (result = .ok () → ∃ bytes, volume.at? staged = some (.file bytes)) := by
  unfold validateStaged
  refine Ensures.bind (R := fun length disk =>
    Disk.At K volume disk ∧ volume.metadata staged = .ok length) ?_ fun length => ?_
  · refine Ensures.mono (fileLen_ensures hlawful hvolume staged _) (fun _ h => h) ?_
    rintro (error | length) disk h
    · exact ⟨h.1, by simp [h.2], fun h => by cases h⟩
    · exact h
  · match length with
    | none => exact fun disk h => ⟨h.1, by simp, fun h => by cases h⟩
    | some 0 => exact fun disk h => ⟨h.1, by simp, fun h => by cases h⟩
    | some (length + 1) => exact fun disk h => ⟨h.1, by simp, fun _ => metadata_some h.2⟩

variable {plan : ReplacementPlan} {before : Volume} (hdistinct : plan.Distinct before)

include hlawful hdistinct in
theorem rollback_ensures (hmovable : before.Movable plan.current plan.backup) {new : List UInt8}
    (hnew : before.at? plan.staged = some (.file new)) :
    (do
      match ← attempt (filesystem.moveNoreplace plan.backup plan.current) with
      | .ok () => fail .installFailedRolledBack
      | .error _ => fail .rollbackFailed : Fallible Disk ReplacementError Unit).Ensures
      (fun disk => Disk.At (plan.Kept before) (plan.preserved before) disk ∨
        Disk.At (plan.Kept before) ((plan.preserved before).linked plan.staged plan.current) disk)
      fun result disk => ∃ after, Disk.At (plan.Kept before) after disk ∧
        plan.Replaced torn before result after := by
  obtain ⟨⟨old, hold⟩, hfree⟩ := hmovable
  have hrestored : (plan.preserved before).moved plan.backup plan.current = before :=
    Volume.moved_moved ⟨⟨old, hold⟩, hfree⟩
  refine Ensures.bind (R := fun result disk => match result with
    | .ok () => Disk.At (plan.Kept before) before disk
    | .error _ => ∃ after, Disk.At (plan.Kept before) after disk ∧
        after.at? plan.staged = some (.file new) ∧ after.at? plan.backup = some (.file old))
    (Ensures.attempt ?_) fun result => ?_
  · rintro disk (hat | hat)
    · have hmove := hlawful.moves plan.backup plan.current
        (kept_preserved hdistinct) (fun _ => ⟨Or.inr ⟨linked_backup_backup hdistinct,
          Or.inl (linked_backup_staged hdistinct)⟩, by rw [hrestored]; exact kept_before⟩) disk hat
      rcases hrun : filesystem.moveNoreplace plan.backup plan.current disk with ⟨error | ⟨⟩, after⟩
      · rw [hrun] at hmove
        rcases hmove with hsame | ⟨_, _, hlinked⟩
        · exact ⟨_, hsame, by rw [preserved_staged hdistinct, hnew],
            by rw [preserved_backup hdistinct, hold]⟩
        · exact ⟨_, hlinked, by rw [linked_backup_staged hdistinct, hnew],
            by rw [linked_backup_backup hdistinct, hold]⟩
      · rw [hrun] at hmove
        rw [hrestored] at hmove
        exact hmove.2
    · have hoccupied : ¬((plan.preserved before).linked plan.staged plan.current).Movable
          plan.backup plan.current := by
        rintro ⟨_, hnone⟩
        rw [Volume.at?_linked_target, preserved_staged hdistinct, hnew] at hnone
        cases hnone
      have hmove := hlawful.moves plan.backup plan.current
        (kept_linked_current hdistinct) (fun hmovable => absurd hmovable hoccupied) disk hat
      rcases hrun : filesystem.moveNoreplace plan.backup plan.current disk with ⟨error | ⟨⟩, after⟩
      · rw [hrun] at hmove
        rcases hmove with hsame | ⟨_, hmovable, _⟩
        · exact ⟨_, hsame, by rw [linked_current_staged hdistinct, hnew],
            by rw [linked_current_backup hdistinct, hold]⟩
        · exact absurd hmovable hoccupied
      · rw [hrun] at hmove
        exact absurd hmove.1 hoccupied
  · rcases result with error | ⟨⟩
    · rintro disk ⟨after, hat, hstaged, hbackup⟩
      exact ⟨after, hat, old, new, hold, hnew, hstaged, hbackup⟩
    · exact fun disk hat => ⟨before, hat, Or.inl rfl⟩

include hlawful hdistinct in
theorem applyReplacement_ensures :
    (applyReplacement filesystem plan).Ensures (Disk.At (plan.Kept before) before)
      fun result disk => ∃ after, Disk.At (plan.Kept before) after disk ∧
        plan.Replaced torn before result after := by
  unfold applyReplacement
  have hstorage : plan.Replaced torn before (.error .storage) before := Or.inl rfl
  refine Ensures.bind (R := fun _ disk => Disk.At (plan.Kept before) before disk ∧
    ∃ new, before.at? plan.staged = some (.file new)) ?_ fun _ => ?_
  · refine Ensures.mono (validateStaged_ensures hlawful kept_before plan.staged) (fun _ h => h) ?_
    rintro (error | ⟨⟩) disk ⟨hat, herror, hfile⟩
    · exact ⟨before, hat, plan.replaced_unchanged torn before fun heq => herror (by rw [heq])⟩
    · exact ⟨hat, hfile rfl⟩
  refine Ensures.assuming fun ⟨new, hnew⟩ => ?_
  refine Ensures.bind (R := fun length disk => Disk.At (plan.Kept before) before disk ∧
    before.metadata plan.current = .ok length) ?_ fun length => ?_
  · refine Ensures.mono (fileLen_ensures hlawful kept_before plan.current _) (fun _ h => h) ?_
    rintro (error | length) disk ⟨hat, hlength⟩
    · exact ⟨before, hat, hlength ▸ hstorage⟩
    · exact ⟨hat, hlength⟩
  refine Ensures.assuming fun hcurrent => ?_
  refine Ensures.bind (R := fun _ disk => Disk.At (plan.Kept before) before disk ∧
    length.isSome = true) (Ensures.ensure (fun hsome disk hat => ⟨hat, hsome⟩)
      fun _ disk hat => ⟨before, hat, Or.inl rfl⟩) fun _ => ?_
  refine Ensures.assuming fun hsome => ?_
  obtain ⟨length, rfl⟩ := Option.isSome_iff_exists.mp hsome
  refine Ensures.bind (R := fun length disk => Disk.At (plan.Kept before) before disk ∧
    before.metadata plan.backup = .ok length) ?_ fun length => ?_
  · refine Ensures.mono (fileLen_ensures hlawful kept_before plan.backup _) (fun _ h => h) ?_
    rintro (error | length) disk ⟨hat, hlength⟩
    · exact ⟨before, hat, hlength ▸ hstorage⟩
    · exact ⟨hat, hlength⟩
  refine Ensures.assuming fun _ => ?_
  refine Ensures.bind (R := fun _ disk => Disk.At (plan.Kept before) before disk)
    (Ensures.ensure (fun _ disk hat => hat) fun _ disk hat => ⟨before, hat, Or.inl rfl⟩) fun _ => ?_
  refine Ensures.bind (R := fun _ disk => Disk.At (plan.Kept before) (plan.preserved before) disk ∧
    before.Movable plan.current plan.backup) (Ensures.mapError ?_) fun _ => ?_
  · refine Ensures.mono (hlawful.moves plan.current plan.backup
      kept_before fun _ => ⟨kept_linked_backup hdistinct, kept_preserved hdistinct⟩)
      (fun _ h => h) ?_
    rintro (error | ⟨⟩) disk h
    · rcases h with hat | ⟨htorn, _, hat⟩
      · exact ⟨before, hat, Or.inl rfl⟩
      · exact ⟨_, hat, Or.inr htorn⟩
    · exact ⟨h.2, h.1⟩
  refine Ensures.assuming fun hmovable => ?_
  obtain ⟨old, hold⟩ := hmovable.1
  refine Ensures.bind (R := fun result disk => match result with
    | .ok () => Disk.At (plan.Kept before) ((plan.preserved before).moved plan.staged plan.current)
        disk
    | .error _ => Disk.At (plan.Kept before) (plan.preserved before) disk ∨
        Disk.At (plan.Kept before) ((plan.preserved before).linked plan.staged plan.current) disk)
    (Ensures.attempt ?_) fun result => ?_
  · refine Ensures.mono (hlawful.moves plan.staged plan.current
      (kept_preserved hdistinct) fun _ => ⟨kept_linked_current hdistinct, kept_installed hdistinct⟩)
      (fun _ h => h) ?_
    rintro (error | ⟨⟩) disk h
    · rcases h with hat | ⟨_, _, hat⟩
      · exact Or.inl hat
      · exact Or.inr hat
    · exact h.2
  · rcases result with error | ⟨⟩
    · exact rollback_ensures hlawful hdistinct hmovable hnew
    · refine Ensures.pure fun disk hat => ⟨_, hat, old, new, hold, hnew, ?_, ?_⟩
      · rw [installed_current hdistinct, hnew]
      · rw [installed_backup hdistinct, hold]

/-- The bytes of an installation are at its staging path or at its destination. -/
def KeptInstall (staging destination : String) (before now : Volume) : Prop :=
  now.at? staging = before.at? staging ∨ now.at? destination = before.at? staging

/-- What an installation's result says about the volume. -/
def Installed (staging destination : String) (torn : Prop) (before : Volume) :
    Except CommitError CommitOutcome → Volume → Prop
  | .ok outcome, after => outcome = .installed ∧ ∃ new, before.at? staging = some (.file new) ∧
      before.at? destination = none ∧ after = before.moved staging destination
  | .error _, after => after = before ∨ torn

include hlawful in
theorem install_ensures {staging destination : String} {before : Volume} :
    (commitDownload filesystem ⟨staging, .install destination⟩).Ensures
      (Disk.At (KeptInstall staging destination before) before)
      fun result disk => ∃ after, Disk.At (KeptInstall staging destination before) after disk ∧
        Installed staging destination torn before result after := by
  have hbefore : KeptInstall staging destination before before := Or.inl rfl
  unfold commitDownload
  refine Ensures.bind (R := fun _ disk => Disk.At (KeptInstall staging destination before) before
    disk) (Ensures.mapError ?_) fun _ => ?_
  · refine Ensures.mono (validateStaged_ensures hlawful hbefore staging) (fun _ h => h) ?_
    rintro (error | ⟨⟩) disk ⟨hat, _⟩
    · exact ⟨before, hat, Or.inl rfl⟩
    · exact hat
  refine Ensures.bind (R := fun length disk =>
    Disk.At (KeptInstall staging destination before) before disk ∧
      before.metadata destination = .ok length) ?_ fun length => ?_
  · refine Ensures.mono (fileLen_ensures hlawful hbefore destination _) (fun _ h => h) ?_
    rintro (error | length) disk ⟨hat, hlength⟩
    · exact ⟨before, hat, Or.inl rfl⟩
    · exact ⟨hat, hlength⟩
  refine Ensures.assuming fun _ => ?_
  refine Ensures.bind (R := fun _ disk => Disk.At (KeptInstall staging destination before) before
    disk) (Ensures.ensure (fun _ disk hat => hat) fun _ disk hat => ⟨before, hat, Or.inl rfl⟩)
    fun _ => ?_
  refine Ensures.bind (R := fun _ disk => Disk.At (KeptInstall staging destination before)
    (before.moved staging destination) disk ∧ before.Movable staging destination)
    (Ensures.mapError ?_) fun _ => ?_
  · refine Ensures.mono (hlawful.moves staging destination hbefore
      fun hmovable => ⟨Or.inr (Volume.at?_linked_target ..),
        Or.inr (Volume.at?_moved_target hmovable.ne.symm)⟩) (fun _ h => h) ?_
    rintro (error | ⟨⟩) disk h
    · rcases h with hat | ⟨htorn, _, hat⟩
      · exact ⟨before, hat, Or.inl rfl⟩
      · exact ⟨_, hat, Or.inr htorn⟩
    · exact ⟨h.2, h.1⟩
  refine Ensures.assuming fun ⟨⟨new, hnew⟩, hfree⟩ => ?_
  exact Ensures.pure fun disk hat => ⟨_, hat, rfl, new, hnew, hfree, rfl⟩

end Replacement

theorem commitDownload_replace {σ : Type} (filesystem : FileSystem σ) (staging : String)
    (plan : ReplacementPlan) (state : σ) :
    commitDownload filesystem ⟨staging, .replace plan⟩ state =
      (((applyReplacement filesystem plan state).1.mapError .ofReplacement).map fun _ => .replaced,
        (applyReplacement filesystem plan state).2) := by
  unfold commitDownload
  rcases hrun : applyReplacement filesystem plan state with ⟨_ | ⟨⟩, _⟩
  · exact bind_of_error (by rw [mapError_apply, hrun]; rfl) _
  · exact bind_of_ok (by rw [mapError_apply, hrun]; rfl) _

/-- Whatever fails, a commit loses no binary: a replacement installs the new file and keeps the old one
at its backup, changes nothing, or after a failed rollback leaves both files at the backup and at the
staging path; an installation moves the staged file to a free destination or changes nothing. While the
production filesystem works, the files are at one of the paths after each of its steps. -/
theorem commits_keep_binaries (volume : Volume) (faults : Nat → Option FileSystemError)
    (plan : ReplacementPlan) (hdistinct : plan.Distinct volume) (staging destination : String) :
    let disk := Disk.new volume faults
    let replaced := applyReplacement Disk.fileSystem plan disk
    let committed := commitDownload Disk.fileSystem ⟨staging, .replace plan⟩ disk
    let installed := commitDownload Disk.fileSystem ⟨staging, .install destination⟩ disk
    plan.Replaced False volume replaced.1 replaced.2.volume ∧
      committed = ((replaced.1.mapError .ofReplacement).map fun _ => .replaced, replaced.2) ∧
      Installed staging destination False volume installed.1 installed.2.volume ∧
      (∀ left ∈ (applyReplacement stdFileSystem plan disk).2.trail, plan.Kept volume left) ∧
      ∀ left ∈ (commitDownload stdFileSystem ⟨staging, .install destination⟩ disk).2.trail,
        KeptInstall staging destination volume left := by
  dsimp only
  obtain ⟨replaced, hreplaced, hresult⟩ := applyReplacement_ensures Disk.fileSystem_lawful hdistinct
    (Disk.new volume faults) (.new volume faults)
  obtain ⟨installed, hinstalled, houtcome⟩ := install_ensures Disk.fileSystem_lawful
    (Disk.new volume faults) (.new (K := KeptInstall staging destination volume) volume faults)
  obtain ⟨_, hstd, _⟩ := applyReplacement_ensures stdFileSystem_lawful hdistinct
    (Disk.new volume faults) (.new volume faults)
  obtain ⟨_, hstdInstall, _⟩ := install_ensures stdFileSystem_lawful
    (Disk.new volume faults) (.new (K := KeptInstall staging destination volume) volume faults)
  refine ⟨?_, commitDownload_replace _ staging plan _, ?_, hstd.trail, hstdInstall.trail⟩
  · rw [hreplaced.volume]
    exact hresult
  · rw [hinstalled.volume]
    exact houtcome

/-- Both moves after the first fail: the old file is at its backup and the new one at its staging
path. -/
theorem rollback_failed_keeps_both :
    let volume : Volume := ⟨String.length, fun entry =>
      if entry = 11 then some (.file [1]) else if entry = 10 then some (.file [2, 3]) else none⟩
    let plan : ReplacementPlan := ⟨"current.dll", "staged.dll", "backup", by decide, by decide,
      by decide⟩
    let result := applyReplacement Disk.fileSystem plan
      (Disk.new volume fun call => if 4 ≤ call then some .permissionDenied else none)
    result.1 = .error .rollbackFailed ∧ plan.Replaced False volume result.1 result.2.volume :=
  ⟨rfl, (commits_keep_binaries _ _ _ ⟨by decide, by decide, by decide⟩ "" "").1⟩

end Nexus
