import Nexus.FontRegistry

namespace Nexus

namespace FontOp

open FontManager

/-- The call leaves the entry without a claim and without a subscriber, and takes it away. -/
def Frees (manager : FontManager) (entry : FontEntry) : FontOp → Prop
  | release identifier subscription => ReleasesLast identifier subscription entry
  | replaceOwnerMemory owner requests =>
    Accepts manager owner requests ∧ OmitsLast owner requests entry
  | cleanupOwnerResources owner => (entry.unclaim owner).isUnreferenced = true
  | cleanupOwner owner => ((dropOwner owner entry).unclaim owner).isUnreferenced = true
  | _ => False

theorem identifiers_cleanupOwner (owner : OwnerId) (manager : FontManager) :
    (FontManager.cleanupOwner owner manager).2.identifiers =
      (manager.registry.filter fun entry =>
        !((dropOwner owner entry).unclaim owner).isUnreferenced).map FontEntry.identifier := by
  have hphase := identifiers_cleanupOwnerResources owner
    (FontManager.cleanupOwnerCallbacks owner manager).2
  unfold FontManager.cleanupOwner
  dsimp only
  rw [hphase]
  unfold FontManager.cleanupOwnerCallbacks
  dsimp only
  rw [List.filter_map, List.map_map]
  rfl

variable {manager : FontManager}

theorem identifiers_nodup_step (hnodup : manager.identifiers.Nodup) (op : FontOp) :
    (op.step manager).identifiers.Nodup := by
  cases op with
  | registerMemory owner identifier size data config callback =>
    rcases identifiers_registerMemory owner identifier size data config callback manager with
      heq | ⟨hfresh, heq⟩
    · exact heq ▸ hnodup
    · show (FontManager.registerMemory ..).2.identifiers.Nodup
      rw [heq]
      exact List.nodup_append.mpr ⟨hnodup, List.nodup_singleton identifier,
        fun other hother last hlast heq => hfresh (by
          rw [← List.mem_singleton.mp hlast, ← heq]
          exact hother)⟩
  | replaceOwnerMemory owner requests =>
    rcases identifiers_replaceOwnerMemory owner requests manager with ⟨_, heq⟩ | ⟨haccepts, hperm⟩
    · show (FontManager.replaceOwnerMemory owner requests manager).2.identifiers.Nodup
      rw [heq]
      exact hnodup
    · refine hperm.nodup_iff.mpr (List.nodup_append.mpr ⟨nodup_keptEntries hnodup,
        (checkRequests_nodup haccepts.1).1, fun identifier hkept other hother heq => ?_⟩)
      obtain ⟨_, _, _, hfree, _⟩ := mem_keptEntries.mp hkept
      obtain ⟨request, hrequest, hid⟩ := List.mem_map.mp hother
      exact hfree request hrequest (hid.trans heq.symm)
  | get owner identifier callback =>
    exact (identifiers_get owner identifier callback manager) ▸ hnodup
  | release identifier subscription =>
    rcases identifiers_release hnodup identifier subscription with ⟨heq, _⟩ | ⟨heq, _⟩
    · exact heq ▸ hnodup
    · show (FontManager.release ..).2.identifiers.Nodup
      rw [heq]
      exact hnodup.filter _
  | cleanupOwnerCallbacks owner =>
    exact (identifiers_cleanupOwnerCallbacks owner manager) ▸ hnodup
  | cleanupOwnerResources owner =>
    show (FontManager.cleanupOwnerResources owner manager).2.identifiers.Nodup
    rw [identifiers_cleanupOwnerResources]
    exact hnodup.sublist (List.filter_sublist.map _)
  | cleanupOwner owner =>
    show (FontManager.cleanupOwner owner manager).2.identifiers.Nodup
    rw [identifiers_cleanupOwner]
    exact hnodup.sublist (List.filter_sublist.map _)
  | resize identifier size => exact (identifiers_resize identifier size manager) ▸ hnodup
  | reload => exact hnodup
  | advance rebuild => exact (identifiers_advance rebuild manager) ▸ hnodup

theorem identifiers_nodup_run (ops : List FontOp) : (run ops).identifiers.Nodup := by
  induction ops using List.reverseRecOn with
  | nil => exact List.nodup_nil
  | append_singleton _ op ih =>
    rw [run_append]
    exact identifiers_nodup_step ih op

variable {entry : FontEntry}

theorem mem_filtered {registry : List FontEntry} {keeps : FontEntry → Bool}
    (hnodup : (registry.map FontEntry.identifier).Nodup) (h : entry ∈ registry) :
    entry.identifier ∈ (registry.filter keeps).map FontEntry.identifier ↔ keeps entry = true := by
  constructor
  · intro hmem
    obtain ⟨_, hother, hid⟩ := List.mem_map.mp hmem
    obtain ⟨hregistered, hkeeps⟩ := List.mem_filter.mp hother
    rw [← List.inj_on_of_nodup_map hnodup hregistered h hid]
    exact hkeeps
  · intro hkeeps
    exact List.mem_map_of_mem (List.mem_filter.mpr ⟨h, hkeeps⟩)

theorem mem_identifiers_step (hnodup : manager.identifiers.Nodup) (h : entry ∈ manager.registry)
    (op : FontOp) : entry.identifier ∈ (op.step manager).identifiers ↔ ¬op.Frees manager entry := by
  have hmem := mem_identifiers h
  cases op with
  | registerMemory owner identifier size data config callback =>
    refine iff_of_true ?_ id
    rcases identifiers_registerMemory owner identifier size data config callback manager with
      heq | ⟨_, heq⟩
    · exact heq ▸ hmem
    · show _ ∈ (FontManager.registerMemory ..).2.identifiers
      rw [heq]
      exact List.mem_append_left _ hmem
  | replaceOwnerMemory owner requests =>
    rcases identifiers_replaceOwnerMemory owner requests manager with ⟨hrefused, heq⟩ | ⟨haccepts, hperm⟩
    · refine iff_of_true ?_ fun hfrees => hrefused hfrees.1
      show _ ∈ (FontManager.replaceOwnerMemory owner requests manager).2.identifiers
      rw [heq]
      exact hmem
    · refine hperm.mem_iff.trans ?_
      rw [List.mem_append, mem_keptEntries]
      constructor
      · rintro (⟨other, hother, hid, _, homits⟩ | hrequested) ⟨_, hlast⟩
        · rw [List.inj_on_of_nodup_map hnodup hother h hid] at homits
          exact homits hlast
        · obtain ⟨request, hrequest, hid⟩ := List.mem_map.mp hrequested
          exact hlast.2.1 request hrequest hid
      · intro hkept
        by_cases hrequested : entry.identifier ∈ requests.map FontMemoryReplacement.identifier
        · exact Or.inr hrequested
        · refine Or.inl ⟨entry, h, rfl, fun request hrequest hid => hrequested ?_, fun homits =>
            hkept ⟨haccepts, homits⟩⟩
          rw [← hid]
          exact List.mem_map_of_mem hrequest
  | get owner identifier callback =>
    exact iff_of_true (identifiers_get owner identifier callback manager ▸ hmem) id
  | release identifier subscription =>
    rcases identifiers_release hnodup identifier subscription with ⟨heq, hkept⟩ | ⟨heq, hlast⟩
    · exact iff_of_true (heq ▸ hmem) (hkept entry h)
    · refine Iff.trans ?_ (not_congr (hlast entry h)).symm
      show _ ∈ (FontManager.release ..).2.identifiers ↔ _
      rw [heq, List.mem_filter, decide_eq_true_eq]
      exact and_iff_right hmem
  | cleanupOwnerCallbacks owner =>
    exact iff_of_true (identifiers_cleanupOwnerCallbacks owner manager ▸ hmem) id
  | cleanupOwnerResources owner =>
    show _ ∈ (FontManager.cleanupOwnerResources owner manager).2.identifiers ↔ ¬(_ = true)
    rw [identifiers_cleanupOwnerResources, mem_filtered hnodup h, Bool.not_eq_true']
    exact Bool.not_eq_true _ ▸ Iff.rfl
  | cleanupOwner owner =>
    show _ ∈ (FontManager.cleanupOwner owner manager).2.identifiers ↔ ¬(_ = true)
    rw [identifiers_cleanupOwner, mem_filtered hnodup h, Bool.not_eq_true']
    exact Bool.not_eq_true _ ▸ Iff.rfl
  | resize identifier size =>
    exact iff_of_true (identifiers_resize identifier size manager ▸ hmem) id
  | reload => exact iff_of_true hmem id
  | advance rebuild => exact iff_of_true (identifiers_advance rebuild manager ▸ hmem) id

inductive Cleans (owner : OwnerId) : FontOp → Prop
  | callbacks : Cleans owner (.cleanupOwnerCallbacks owner)
  | resources : Cleans owner (.cleanupOwnerResources owner)
  | both : Cleans owner (.cleanupOwner owner)

/-- The claims and the subscribers of an owner on an entry are still there. -/
def KeepsReferences (owner : OwnerId) (entry next : FontEntry) : Prop :=
  (owner ∈ entry.ownerClaims → owner ∈ next.ownerClaims) ∧
    next.subscribers.filter (fun subscriber => subscriber.owner = owner) =
      entry.subscribers.filter (fun subscriber => subscriber.owner = owner)

theorem KeepsReferences.heldBy {owner : OwnerId} {next : FontEntry}
    (h : KeepsReferences owner entry next) (hheld : entry.HeldBy owner) : next.HeldBy owner := by
  rcases hheld with hclaim | ⟨subscriber, hmem, howner⟩
  · exact Or.inl (h.1 hclaim)
  · have hkept : subscriber ∈ next.subscribers.filter (fun other => other.owner = owner) := by
      rw [h.2]
      exact List.mem_filter.mpr ⟨hmem, decide_eq_true howner⟩
    exact Or.inr ⟨subscriber, (List.mem_filter.mp hkept).1, howner⟩

variable {cleaned other : OwnerId}

theorem keepsReferences_dropOwner (h : other ≠ cleaned) (entry : FontEntry) :
    KeepsReferences other entry (dropOwner cleaned entry) := by
  refine ⟨id, ?_⟩
  unfold dropOwner
  rw [List.filter_filter]
  refine List.filter_congr fun subscriber _ => ?_
  by_cases howner : subscriber.owner = other
  · simp [howner, h]
  · simp [howner]

theorem keepsReferences_unclaim (h : other ≠ cleaned) (entry : FontEntry) :
    KeepsReferences other entry (entry.unclaim cleaned) :=
  ⟨fun hclaim => List.mem_filter.mpr ⟨hclaim, decide_eq_true h⟩, rfl⟩

theorem mem_swept (h : other ≠ cleaned) (hentry : entry ∈ manager.registry)
    (hheld : entry.HeldBy other) :
    entry.unclaim cleaned ∈ (FontManager.cleanupOwnerResources cleaned manager).2.registry := by
  refine List.mem_filter.mpr ⟨List.mem_map_of_mem hentry, ?_⟩
  rw [Bool.not_eq_true', Bool.eq_false_iff]
  intro hfree
  exact (FontEntry.isUnreferenced_iff_not_held _).mp hfree other
    ((keepsReferences_unclaim h entry).heldBy hheld)

theorem cleanup_keeps (h : other ≠ cleaned) {op : FontOp} (hop : Cleans cleaned op)
    (hentry : entry ∈ manager.registry) (hheld : entry.HeldBy other) :
    ∃ next ∈ (op.step manager).registry, next.identifier = entry.identifier ∧
      KeepsReferences other entry next := by
  cases hop with
  | callbacks =>
    exact ⟨dropOwner cleaned entry, List.mem_map_of_mem hentry, rfl,
      keepsReferences_dropOwner h entry⟩
  | resources =>
    exact ⟨entry.unclaim cleaned, mem_swept h hentry hheld, rfl, keepsReferences_unclaim h entry⟩
  | both =>
    have hdropped := keepsReferences_dropOwner h entry
    have hunclaimed := keepsReferences_unclaim h (dropOwner cleaned entry)
    refine ⟨(dropOwner cleaned entry).unclaim cleaned,
      mem_swept h (List.mem_map_of_mem hentry) (hdropped.heldBy hheld), rfl, ?_⟩
    exact ⟨fun hclaim => hunclaimed.1 (hdropped.1 hclaim), hunclaimed.2.trans hdropped.2⟩

end FontOp

/-- Two runs around the first phase of an owner's cleanup, the second of which has not come to
the owner's second phase. -/
structure OwnerUnload where
  before : List FontOp
  owner : OwnerId
  between : List FontOp
  pending : ∀ op ∈ between, op ≠ .cleanupOwnerResources owner ∧ op ≠ .cleanupOwner owner

namespace OwnerUnload

open FontManager

def reached (unload : OwnerUnload) (calls : List FontOp) : FontManager :=
  FontOp.run (unload.before ++ [.cleanupOwnerCallbacks unload.owner] ++ calls)

theorem reached_append (unload : OwnerUnload) (calls : List FontOp) (op : FontOp) :
    unload.reached (calls ++ [op]) = op.step (unload.reached calls) := by
  unfold reached
  rw [← List.append_assoc, FontOp.run_append]

/-- The font stays registered until the second phase. -/
def Stays (unload : OwnerUnload) (identifier : String) : Prop :=
  ∀ calls rest, unload.between = calls ++ rest →
    identifier ∈ (unload.reached calls).identifiers

/-- The second phase removes the font exactly when no other owner holds it. -/
def SweptUnlessHeld (unload : OwnerUnload) (identifier : String) : Prop :=
  identifier ∉ ((FontOp.cleanupOwnerResources unload.owner).step
      (unload.reached unload.between)).identifiers ↔
    ∀ entry ∈ (unload.reached unload.between).registry, entry.identifier = identifier →
      ∀ other, other ≠ unload.owner → ¬entry.HeldBy other

/-- No call between the phases takes the last reference of the font, or sweeps it while it has
none. -/
def Unfreed (unload : OwnerUnload) (identifier : String) : Prop :=
  ∀ calls op rest, unload.between = calls ++ op :: rest →
    ∀ entry ∈ (unload.reached calls).registry, entry.identifier = identifier →
      ¬op.Frees (unload.reached calls) entry

/-- When the second phase comes the owner is not subscribed again, or is not the only one. -/
def NotSubscribedAgain (unload : OwnerUnload) (identifier : String) : Prop :=
  ∀ entry ∈ (unload.reached unload.between).registry, entry.identifier = identifier →
    (∃ subscriber ∈ entry.subscribers, subscriber.owner = unload.owner) →
      ∃ other, other ≠ unload.owner ∧ entry.HeldBy other

theorem stays_iff (unload : OwnerUnload) {identifier : String}
    (h : identifier ∈ (FontOp.run unload.before).identifiers) :
    unload.Stays identifier ↔ unload.Unfreed identifier := by
  constructor
  · intro hstays calls op rest hbetween entry hentry hid
    have hnext := hstays (calls ++ [op]) rest (by rw [hbetween, List.append_assoc]; rfl)
    rw [reached_append, ← hid] at hnext
    exact (FontOp.mem_identifiers_step (FontOp.identifiers_nodup_run _) hentry op).mp hnext
  · intro hunfreed calls
    induction calls using List.reverseRecOn with
    | nil =>
      intro _ _
      show identifier ∈ (FontOp.run (unload.before ++ [.cleanupOwnerCallbacks unload.owner] ++
        [])).identifiers
      rw [List.append_nil, FontOp.run_append]
      exact (identifiers_cleanupOwnerCallbacks unload.owner _).symm ▸ h
    | append_singleton calls op ih =>
      intro rest hbetween
      rw [List.append_assoc] at hbetween
      obtain ⟨entry, hentry, hid⟩ := List.mem_map.mp (ih (op :: rest) hbetween)
      rw [reached_append, ← hid]
      exact (FontOp.mem_identifiers_step (FontOp.identifiers_nodup_run _) hentry op).mpr
        (hunfreed calls op rest hbetween entry hentry hid)

/-- Nothing is left of an entry without the owner's claim exactly when it has no subscriber and
no other owner's claim. -/
theorem isUnreferenced_unclaim_iff (owner : OwnerId) (entry : FontEntry) :
    (entry.unclaim owner).isUnreferenced = true ↔
      (∀ other, other ≠ owner → ¬entry.HeldBy other) ∧
        ¬∃ subscriber ∈ entry.subscribers, subscriber.owner = owner := by
  rw [FontEntry.isUnreferenced_iff_not_held]
  constructor
  · intro hfree
    refine ⟨fun other hne hheld => ?_, fun hagain => hfree owner (Or.inr hagain)⟩
    exact hfree other ((FontOp.keepsReferences_unclaim hne entry).heldBy hheld)
  · rintro ⟨hothers, hagain⟩ other (hclaim | hsubscribed)
    · obtain ⟨hmem, hne⟩ := List.mem_filter.mp hclaim
      exact hothers other (of_decide_eq_true hne) (Or.inl hmem)
    · by_cases heq : other = owner
      · exact hagain (heq ▸ hsubscribed)
      · exact hothers other heq (Or.inr hsubscribed)

theorem sweptUnlessHeld_iff (unload : OwnerUnload) {identifier : String}
    (h : identifier ∈ (unload.reached unload.between).identifiers) :
    unload.SweptUnlessHeld identifier ↔ unload.NotSubscribedAgain identifier := by
  obtain ⟨entry, hentry, rfl⟩ := List.mem_map.mp h
  have hnodup := FontOp.identifiers_nodup_run
    (unload.before ++ [.cleanupOwnerCallbacks unload.owner] ++ unload.between)
  have honly : ∀ other ∈ (unload.reached unload.between).registry,
      other.identifier = entry.identifier → other = entry :=
    fun other hother hid => List.inj_on_of_nodup_map hnodup hother hentry hid
  have hswept : entry.identifier ∉ ((FontOp.cleanupOwnerResources unload.owner).step
      (unload.reached unload.between)).identifiers ↔ _ :=
    ((FontOp.mem_identifiers_step hnodup hentry _).not.trans not_not).trans
      (isUnreferenced_unclaim_iff unload.owner entry)
  unfold SweptUnlessHeld NotSubscribedAgain
  rw [hswept]
  constructor
  · intro hexactly other hother hid hagain
    rw [honly other hother hid] at hagain ⊢
    by_contra hnone
    rw [not_exists] at hnone
    have hothers : ∀ other, other ≠ unload.owner → ¬entry.HeldBy other :=
      fun other hne hheld => hnone other ⟨hne, hheld⟩
    refine (hexactly.mpr fun item hitem hsame => ?_).2 hagain
    rw [honly item hitem hsame]
    exact hothers
  · intro hagain
    constructor
    · rintro ⟨hothers, _⟩ item hitem hsame
      rw [honly item hitem hsame]
      exact hothers
    · intro hothers
      refine ⟨hothers entry hentry rfl, fun hsubscribed => ?_⟩
      obtain ⟨other, hne, hheld⟩ := hagain entry hentry rfl hsubscribed
      exact hothers entry hentry rfl other hne hheld

/-- A registered font stays from the first phase of an owner's cleanup to the second, which removes
it exactly when no other owner holds it, if and only if no call in between takes its last reference
and the owner does not subscribe again. The cleanup of an owner keeps the references of all
others. -/
theorem font_kept_between_phases (unload : OwnerUnload) {entry : FontEntry}
    (h : entry ∈ (FontOp.run unload.before).registry) :
    (unload.Stays entry.identifier ∧ unload.SweptUnlessHeld entry.identifier ↔
      unload.Unfreed entry.identifier ∧ unload.NotSubscribedAgain entry.identifier) ∧
    ∀ ops cleaned other op, other ≠ cleaned → FontOp.Cleans cleaned op →
      ∀ item ∈ (FontOp.run ops).registry, item.HeldBy other →
        ∃ next ∈ (op.step (FontOp.run ops)).registry, next.identifier = item.identifier ∧
          FontOp.KeepsReferences other item next := by
  refine ⟨?_, fun ops cleaned other op hne hop item hitem hitemHeld =>
    FontOp.cleanup_keeps hne hop hitem hitemHeld⟩
  rw [stays_iff unload (mem_identifiers h)]
  refine and_congr_right fun hunfreed => sweptUnlessHeld_iff unload ?_
  exact (stays_iff unload (mem_identifiers h)).mpr hunfreed unload.between []
    (List.append_nil _).symm

/-- A font of one subscriber, whose owner is cleaned up with nothing in between. -/
def quietUnload : OwnerUnload where
  before := FontOp.firstCallback
  owner := ⟨1, 1⟩
  between := []
  pending := fun op hop => by cases hop

/-- The same unload, with the cleanup of another owner between the phases. -/
def sweptUnload : OwnerUnload where
  before := FontOp.firstCallback
  owner := ⟨1, 1⟩
  between := [.cleanupOwnerResources ⟨2, 1⟩]
  pending := fun op hop => by
    rw [List.mem_singleton.mp hop]
    refine ⟨fun heq => ?_, fun heq => ?_⟩
    · cases heq
    · cases heq

def subscribedFont : FontEntry :=
  ⟨"f", 0x41800000, [1], .default, none, [], [⟨1, ⟨1, 1⟩, FontOp.quietCallback, []⟩]⟩

theorem font_kept_between_phases_nothing_between :
    (quietUnload.Stays "f" ∧ quietUnload.SweptUnlessHeld "f" ↔
      quietUnload.Unfreed "f" ∧ quietUnload.NotSubscribedAgain "f") ∧
    ∀ ops cleaned other op, other ≠ cleaned → FontOp.Cleans cleaned op →
      ∀ item ∈ (FontOp.run ops).registry, item.HeldBy other →
        ∃ next ∈ (op.step (FontOp.run ops)).registry, next.identifier = item.identifier ∧
          FontOp.KeepsReferences other item next := by
  have hregistered : subscribedFont ∈ (FontOp.run quietUnload.before).registry :=
    List.mem_singleton.mpr rfl
  exact font_kept_between_phases quietUnload hregistered

/-- The second phase of another owner removes the font before the owner's own second phase. -/
theorem font_swept_before_second_phase :
    ∃ unload : OwnerUnload, ∃ entry ∈ (FontOp.run unload.before).registry,
      entry.HeldBy unload.owner ∧ ¬unload.Stays entry.identifier := by
  refine ⟨sweptUnload, subscribedFont, List.mem_singleton.mpr rfl, Or.inr ⟨_,
    List.mem_singleton.mpr rfl, rfl⟩, fun hstays => ?_⟩
  have hswept : (sweptUnload.reached sweptUnload.between).identifiers = [] := rfl
  have hmem := hstays sweptUnload.between [] (List.append_nil _).symm
  rw [hswept] at hmem
  cases hmem

end OwnerUnload

end Nexus
