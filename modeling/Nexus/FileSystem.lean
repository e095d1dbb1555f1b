import Mathlib.Logic.Function.Basic
import Nexus.Fallible

namespace Nexus

inductive FileSystemError where
  | notFound
  | alreadyExists
  | permissionDenied
  | capacityExhausted
  | limitExceeded
  | operationFailed
  deriving DecidableEq

inductive FileEntry where
  | file (bytes : List UInt8)
  | directory
  deriving DecidableEq

/-- The content of a file system. Two paths may name one directory entry. -/
@[ext] structure Volume where
  locate : String → Nat
  entries : Nat → Option FileEntry

namespace Volume

def at? (volume : Volume) (path : String) : Option FileEntry := volume.entries (volume.locate path)

def set (volume : Volume) (path : String) (entry : Option FileEntry) : Volume :=
  { volume with entries := Function.update volume.entries (volume.locate path) entry }

theorem at?_set (volume : Volume) (path other : String) (entry : Option FileEntry) :
    (volume.set path entry).at? other =
      if volume.locate other = volume.locate path then entry else volume.at? other :=
  Function.update_apply ..

@[simp] theorem at?_set_self (volume : Volume) (path : String) (entry : Option FileEntry) :
    (volume.set path entry).at? path = entry := by
  rw [at?_set, if_pos rfl]

theorem at?_set_of_ne {volume : Volume} {path other : String}
    (h : volume.locate other ≠ volume.locate path) (entry : Option FileEntry) :
    (volume.set path entry).at? other = volume.at? other := by
  rw [at?_set, if_neg h]

/-- The length of a regular file, or `none` for an absent entry. -/
def metadata (path : String) (volume : Volume) : Except FileSystemError (Option Nat) :=
  match volume.at? path with
  | none => .ok none
  | some (.file bytes) => .ok (some bytes.length)
  | some .directory => .error .operationFailed

def hardLink (source target : String) (volume : Volume) : Except FileSystemError Volume :=
  match volume.at? source, volume.at? target with
  | none, _ => .error .notFound
  | some .directory, _ => .error .permissionDenied
  | some (.file _), some _ => .error .alreadyExists
  | some (.file bytes), none => .ok (volume.set target (some (.file bytes)))

def removeFile (path : String) (volume : Volume) : Except FileSystemError Volume :=
  match volume.at? path with
  | none => .error .notFound
  | some .directory => .error .permissionDenied
  | some (.file _) => .ok (volume.set path none)

def linked (source target : String) (volume : Volume) : Volume :=
  volume.set target (volume.at? source)

/-- The source's entry under the target's path only. -/
def moved (source target : String) (volume : Volume) : Volume :=
  (volume.linked source target).set source none

def moveNoreplace (source target : String) (volume : Volume) : Except FileSystemError Volume :=
  match volume.hardLink source target with
  | .error error => .error error
  | .ok _ => .ok (volume.moved source target)

def Movable (volume : Volume) (source target : String) : Prop :=
  (∃ bytes, volume.at? source = some (.file bytes)) ∧ volume.at? target = none

theorem hardLink_ok {source target : String} {volume next : Volume}
    (h : volume.hardLink source target = .ok next) :
    volume.Movable source target ∧ next = volume.linked source target := by
  unfold hardLink at h
  split at h
  · cases h
  · cases h
  · cases h
  next bytes hsource htarget =>
    cases h
    refine ⟨⟨⟨bytes, hsource⟩, htarget⟩, ?_⟩
    unfold linked
    rw [hsource]

theorem moveNoreplace_ok {source target : String} {volume next : Volume}
    (h : volume.moveNoreplace source target = .ok next) :
    volume.Movable source target ∧ next = volume.moved source target := by
  unfold moveNoreplace at h
  split at h
  · cases h
  next hlink =>
    cases h
    exact ⟨(hardLink_ok hlink).1, rfl⟩

theorem Movable.ne {volume : Volume} {source target : String} (h : volume.Movable source target) :
    volume.locate source ≠ volume.locate target := by
  obtain ⟨⟨_, hsource⟩, htarget⟩ := h
  intro heq
  unfold at? at hsource htarget
  rw [heq, htarget] at hsource
  cases hsource

theorem removeFile_ok {path : String} {volume next : Volume}
    (h : volume.removeFile path = .ok next) : next = volume.set path none := by
  unfold removeFile at h
  split at h <;> cases h
  rfl

section Moved

variable (source target : String) (volume : Volume)

@[simp] theorem at?_linked_target :
    (volume.linked source target).at? target = volume.at? source := at?_set_self ..

variable {source target volume}

theorem at?_linked_of_ne {path : String} (h : volume.locate path ≠ volume.locate target) :
    (volume.linked source target).at? path = volume.at? path := at?_set_of_ne h _

theorem at?_moved_target (h : volume.locate target ≠ volume.locate source) :
    (volume.moved source target).at? target = volume.at? source := by
  unfold moved
  rw [at?_set_of_ne (by exact h)]
  exact at?_set_self ..

theorem at?_moved_of_ne {path : String} (hsource : volume.locate path ≠ volume.locate source)
    (htarget : volume.locate path ≠ volume.locate target) :
    (volume.moved source target).at? path = volume.at? path := by
  unfold moved
  rw [at?_set_of_ne (by exact hsource)]
  exact at?_linked_of_ne htarget

theorem unlinked (h : volume.at? target = none) :
    (volume.linked source target).set target none = volume := by
  refine Volume.ext rfl (funext fun entry => ?_)
  unfold linked set
  rw [Function.update_idem, ← h]
  exact congrFun (Function.update_eq_self ..) entry

theorem moved_moved (h : volume.Movable source target) :
    (volume.moved source target).moved target source = volume := by
  have hne := h.ne
  obtain ⟨_, hfree⟩ := h
  have hback : (volume.moved source target).at? target = volume.at? source :=
    at?_moved_target (Ne.symm hne)
  refine Volume.ext rfl (funext fun entry => ?_)
  unfold moved at hback
  unfold moved linked set at *
  simp only [Function.update_apply] at hback ⊢
  by_cases hsource : entry = volume.locate source
  · subst hsource
    rw [if_neg hne, if_pos rfl]
    exact hback
  · by_cases htarget : entry = volume.locate target
    · subst htarget
      rw [if_pos rfl]
      exact hfree.symm
    · rw [if_neg htarget, if_neg hsource, if_neg hsource, if_neg htarget]

end Moved

end Volume

/-- A volume behind calls of which each may fail instead of doing its work, with the volumes that
the calls left. -/
structure Disk where
  volume : Volume
  faults : Nat → Option FileSystemError
  calls : Nat
  trail : List Volume

namespace Disk

variable {α : Type}

def new (volume : Volume) (faults : Nat → Option FileSystemError) : Disk := ⟨volume, faults, 0, []⟩

def leave (disk : Disk) (volume : Volume) : Disk :=
  ⟨volume, disk.faults, disk.calls + 1, disk.trail ++ [volume]⟩

def inspect (work : Volume → Except FileSystemError α) : Fallible Disk FileSystemError α :=
  fun disk =>
    match disk.faults disk.calls with
    | some error => (.error error, disk.leave disk.volume)
    | none => (work disk.volume, disk.leave disk.volume)

/-- A call that changes the volume, or fails without effect. -/
def change (work : Volume → Except FileSystemError Volume) :
    Fallible Disk FileSystemError Unit := fun disk =>
  match disk.faults disk.calls with
  | some error => (.error error, disk.leave disk.volume)
  | none =>
    match work disk.volume with
    | .error error => (.error error, disk.leave disk.volume)
    | .ok volume => (.ok (), disk.leave volume)

end Disk

structure FileSystem (σ : Type) where
  fileLen : String → Fallible σ FileSystemError (Option Nat)
  moveNoreplace : String → String → Fallible σ FileSystemError Unit

/-- A filesystem whose operations fail without effect. -/
def Disk.fileSystem : FileSystem Disk where
  fileLen := fun path => inspect (Volume.metadata path)
  moveNoreplace := fun source target => change (Volume.moveNoreplace source target)

/-- The production filesystem: a move links the file, then removes the source, and takes the link
back when the removal fails. -/
def stdFileSystem : FileSystem Disk where
  fileLen := fun path => Disk.inspect (Volume.metadata path)
  moveNoreplace := fun source target disk =>
    match Disk.change (Volume.hardLink source target) disk with
    | (.error error, disk) => (.error error, disk)
    | (.ok (), disk) =>
      match Disk.change (Volume.removeFile source) disk with
      | (.ok (), disk) => (.ok (), disk)
      | (.error error, disk) => (.error error, (Disk.change (Volume.removeFile target) disk).2)

namespace Disk

/-- The disk holds a volume, and every volume on the way was one of these. -/
structure At (K : Volume → Prop) (volume : Volume) (disk : Disk) : Prop where
  volume : disk.volume = volume
  trail : ∀ left ∈ disk.trail, K left

variable {α : Type} {K : Volume → Prop} {volume : Volume}

theorem At.new (volume : Volume) (faults : Nat → Option FileSystemError) :
    At K volume (Disk.new volume faults) := ⟨rfl, fun _ hleft => nomatch hleft⟩

theorem At.leave {disk : Disk} (h : At K volume disk) {next : Volume} (hnext : K next) :
    At K next (disk.leave next) where
  volume := rfl
  trail := by
    intro left hleft
    rcases List.mem_append.mp hleft with hold | hnew
    · exact h.trail left hold
    · rw [List.mem_singleton.mp hnew]
      exact hnext

theorem inspect_ensures (hvolume : K volume) (work : Volume → Except FileSystemError α) :
    (inspect work).Ensures (At K volume) fun result disk =>
      At K volume disk ∧ ∀ value, result = .ok value → work volume = .ok value := by
  intro disk h
  have hleft : At K volume (disk.leave disk.volume) := h.volume ▸ h.leave (h.volume ▸ hvolume)
  unfold inspect
  split
  · exact ⟨hleft, fun value hvalue => by cases hvalue⟩
  · refine ⟨hleft, fun value hvalue => ?_⟩
    rw [← h.volume]
    exact hvalue

theorem change_ensures (hvolume : K volume) (work : Volume → Except FileSystemError Volume)
    (hwork : ∀ next, work volume = .ok next → K next) :
    (change work).Ensures (At K volume) fun result disk =>
      match result with
      | .ok () => ∃ next, work volume = .ok next ∧ At K next disk
      | .error _ => At K volume disk := by
  intro disk h
  have hleft : At K volume (disk.leave disk.volume) := h.volume ▸ h.leave (h.volume ▸ hvolume)
  rcases hfault : disk.faults disk.calls with _ | error
  · rcases hnext : work disk.volume with error | next
    · have hrun : change work disk = (.error error, disk.leave disk.volume) := by
        simp only [change, hfault, hnext]
      rw [hrun]
      exact hleft
    · have hrun : change work disk = (.ok (), disk.leave next) := by
        simp only [change, hfault, hnext]
      rw [hrun]
      rw [h.volume] at hnext
      exact ⟨next, hnext, h.leave (hwork next hnext)⟩
  · have hrun : change work disk = (.error error, disk.leave disk.volume) := by
      simp only [change, hfault]
    rw [hrun]
    exact hleft

end Disk

/-- What a filesystem's operations do. A move that fails may leave the link when `torn`. -/
structure FileSystem.Lawful (filesystem : FileSystem Disk) (torn : Prop) : Prop where
  fileLen : ∀ {K : Volume → Prop} {volume : Volume} (path : String), K volume →
    (filesystem.fileLen path).Ensures (Disk.At K volume) fun result disk =>
      Disk.At K volume disk ∧ ∀ length, result = .ok length → volume.metadata path = .ok length
  moveNoreplace : ∀ {K : Volume → Prop} {volume : Volume} {source target : String}, K volume →
    (volume.Movable source target → K (volume.linked source target) ∧
      K (volume.moved source target)) →
    (filesystem.moveNoreplace source target).Ensures (Disk.At K volume) fun result disk =>
      match result with
      | .ok () => volume.Movable source target ∧ Disk.At K (volume.moved source target) disk
      | .error _ => Disk.At K volume disk ∨
        torn ∧ volume.Movable source target ∧ Disk.At K (volume.linked source target) disk

theorem FileSystem.Lawful.moves {filesystem : FileSystem Disk} {torn : Prop}
    (h : filesystem.Lawful torn) (source target : String) {K : Volume → Prop} {volume : Volume}
    (hvolume : K volume) (hclosed : volume.Movable source target →
      K (volume.linked source target) ∧ K (volume.moved source target)) :
    (filesystem.moveNoreplace source target).Ensures (Disk.At K volume) fun result disk =>
      match result with
      | .ok () => volume.Movable source target ∧ Disk.At K (volume.moved source target) disk
      | .error _ => Disk.At K volume disk ∨
        torn ∧ volume.Movable source target ∧ Disk.At K (volume.linked source target) disk :=
  h.moveNoreplace hvolume hclosed

theorem Disk.fileSystem_lawful : Disk.fileSystem.Lawful False where
  fileLen := fun path hvolume => inspect_ensures hvolume (Volume.metadata path)
  moveNoreplace := by
    intro K volume source target hvolume hclosed
    refine Fallible.Ensures.mono (change_ensures hvolume _ fun next hnext => ?_) (fun _ h => h) ?_
    · obtain ⟨hmovable, rfl⟩ := Volume.moveNoreplace_ok hnext
      exact (hclosed hmovable).2
    · rintro (error | ⟨⟩) disk h
      · exact Or.inl h
      · obtain ⟨next, hnext, hat⟩ := h
        obtain ⟨hmovable, rfl⟩ := Volume.moveNoreplace_ok hnext
        exact ⟨hmovable, hat⟩

theorem stdFileSystem_lawful : stdFileSystem.Lawful True where
  fileLen := fun path hvolume => Disk.inspect_ensures hvolume (Volume.metadata path)
  moveNoreplace := by
    intro K volume source target hvolume hclosed disk h
    have hlink := Disk.change_ensures hvolume (Volume.hardLink source target)
      (fun next hnext => by
        obtain ⟨hmovable, rfl⟩ := Volume.hardLink_ok hnext
        exact (hclosed hmovable).1) disk h
    rcases hlinked : Disk.change (Volume.hardLink source target) disk with ⟨error | ⟨⟩, linked⟩
    · have hrun : stdFileSystem.moveNoreplace source target disk = (.error error, linked) := by
        simp only [stdFileSystem, hlinked]
      rw [hlinked] at hlink
      rw [hrun]
      exact Or.inl hlink
    rw [hlinked] at hlink
    obtain ⟨next, hnext, hat⟩ := hlink
    obtain ⟨hmovable, rfl⟩ := Volume.hardLink_ok hnext
    obtain ⟨hlink, hmoved⟩ := hclosed hmovable
    have hremove := Disk.change_ensures hlink (Volume.removeFile source)
      (fun next hnext => by
        rw [Volume.removeFile_ok hnext]
        exact hmoved) linked hat
    rcases hremoved : Disk.change (Volume.removeFile source) linked with ⟨error | ⟨⟩, removed⟩
    · have hrun : stdFileSystem.moveNoreplace source target disk =
          (.error error, (Disk.change (Volume.removeFile target) removed).2) := by
        simp only [stdFileSystem, hlinked, hremoved]
      rw [hremoved] at hremove
      have hundo := Disk.change_ensures hlink (Volume.removeFile target)
        (fun next hnext => by
          rw [Volume.removeFile_ok hnext, Volume.unlinked hmovable.2]
          exact hvolume) removed hremove
      rw [hrun]
      rcases hundone : Disk.change (Volume.removeFile target) removed with ⟨error | ⟨⟩, _⟩
      · rw [hundone] at hundo
        exact Or.inr ⟨trivial, hmovable, hundo⟩
      · rw [hundone] at hundo
        obtain ⟨next, hnext, hat⟩ := hundo
        rw [Volume.removeFile_ok hnext, Volume.unlinked hmovable.2] at hat
        exact Or.inl hat
    · have hrun : stdFileSystem.moveNoreplace source target disk = (.ok (), removed) := by
        simp only [stdFileSystem, hlinked, hremoved]
      rw [hremoved] at hremove
      obtain ⟨next, hnext, hat⟩ := hremove
      rw [Volume.removeFile_ok hnext] at hat
      rw [hrun]
      exact ⟨hmovable, hat⟩

end Nexus
