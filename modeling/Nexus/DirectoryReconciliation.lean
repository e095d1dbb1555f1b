import Mathlib.Data.List.Forall2
import Nexus.ManagerPlaces

namespace Nexus

namespace AddonManager

open Fallible

variable {Path : Type}

def sameBinary (e : Entry Path) (candidate : DiscoveredDll Path) : Prop :=
  e.discovered.revision = candidate.revision ∧ e.discovered.byteLen = candidate.byteLen

def upserted (candidate : DiscoveredDll Path) : Option (Entry Path) → Entry Path
  | some e => { e with discovered := candidate, present := true }
  | none => Entry.ofDiscovered candidate

def vanished (e : Entry Path) : Entry Path :=
  { e with
    present := false
    state := if e.module.isNone then .removed else e.state }

/-- A step that changes the entry under one key and nothing else that is tracked. -/
structure Changes (w next : AddonManager Path) (key : String) (changed : Entry Path) : Prop where
  directory : next.directory = w.directory
  ownerPaths : next.ownerPaths = w.ownerPaths
  entries : ∀ other, next.entries.get? other =
    if other = key then some changed else w.entries.get? other

theorem Changes.of_put {w next : AddonManager Path} {key : String} {changed : Entry Path}
    (hdirectory : next.directory = w.directory) (howners : next.ownerPaths = w.ownerPaths)
    (hentries : next.entries = w.entries.put key changed) : Changes w next key changed :=
  ⟨hdirectory, howners, fun other => by rw [hentries, SortedMap.get?_put]⟩

theorem applyEach_ok {β : Type} (f : β → ManagerM Path (DirectoryImpact Path)) (key : β → String)
    (allowed : AddonDirectory Path → β → Option (Entry Path) → Prop)
    (change : β → Option (Entry Path) → Entry Path)
    (reports : β → Option (Entry Path) → DirectoryImpact Path → Prop)
    (hstep : ∀ x w, allowed w.directory x (w.entries.get? (key x)) →
      ∃ impact next, f x w = (.ok impact, next) ∧
        Changes w next (key x) (change x (w.entries.get? (key x))) ∧
        reports x (w.entries.get? (key x)) impact)
    {items : List β} (hnodup : (items.map key).Nodup) {w : AddonManager Path}
    (hallowed : ∀ x ∈ items, allowed w.directory x (w.entries.get? (key x))) :
    ∃ impacts next, applyEach f items w = (.ok impacts, next) ∧
      next.directory = w.directory ∧ next.ownerPaths = w.ownerPaths ∧
      (∀ x ∈ items, next.entries.get? (key x) = some (change x (w.entries.get? (key x)))) ∧
      (∀ other ∉ items.map key, next.entries.get? other = w.entries.get? other) ∧
      List.Forall₂ (fun x impact => reports x (w.entries.get? (key x)) impact) items impacts := by
  induction items generalizing w with
  | nil => exact ⟨[], w, rfl, rfl, rfl, nofun, fun _ _ => rfl, .nil⟩
  | cons x rest ih =>
    rw [List.map_cons, List.nodup_cons] at hnodup
    obtain ⟨hfresh, hrest⟩ := hnodup
    obtain ⟨impact, middle, hx, hchanges, hreport⟩ := hstep x w (hallowed x List.mem_cons_self)
    have hsame : ∀ y ∈ rest, middle.entries.get? (key y) = w.entries.get? (key y) := by
      intro y hy
      have hne : key y ≠ key x := fun heq => hfresh (heq ▸ List.mem_map_of_mem hy)
      rw [hchanges.entries, if_neg hne]
    obtain ⟨impacts, next, hloop, hdirectory, howners, hitems, hothers, hreports⟩ :=
      ih hrest (w := middle) fun y hy => by
        rw [hchanges.directory, hsame y hy]
        exact hallowed y (List.mem_cons_of_mem _ hy)
    refine ⟨impact :: impacts, next, ?_, hdirectory.trans hchanges.directory,
      howners.trans hchanges.ownerPaths, fun y hy => ?_, fun other hother => ?_, ?_⟩
    · unfold applyEach
      rw [bind_of_ok hx, bind_of_ok hloop]
      rfl
    · rcases List.mem_cons.mp hy with rfl | hmem
      · rw [hothers _ hfresh, hchanges.entries, if_pos rfl]
      · rw [hitems y hmem, hsame y hmem]
    · rw [List.map_cons, List.mem_cons, not_or] at hother
      rw [hothers other hother.2, hchanges.entries, if_neg hother.1]
    · refine .cons hreport (((List.forall₂_and_left _ _).mpr ⟨hsame, hreports⟩).imp ?_)
      rintro y report ⟨heq, hreport⟩
      exact heq ▸ hreport

section Candidates

variable [DecidableEq Path] [HostPath Path]

/-- Every entry is under the key of its candidate, a direct child of the directory. -/
structure Placed (w : AddonManager Path) : Prop where
  key : ∀ key e, w.entries.get? key = some e → pathKey e.discovered.path = key
  child : ∀ key e, w.entries.get? key = some e →
    w.directory.containsDirectChild e.discovered.path = true

variable {w : AddonManager Path}

theorem Placed.located {next : AddonManager Path} (h : Placed w) (hlocated : Located w next) :
    Placed next := by
  have hbefore : ∀ key e, next.entries.get? key = some e →
      ∃ old, w.entries.get? key = some old ∧ old.discovered = e.discovered := by
    intro key e he
    have hsame := hlocated.discovered key
    rw [he] at hsame
    exact Option.map_eq_some_iff.mp hsame.symm
  refine ⟨fun key e he => ?_, fun key e he => ?_⟩
  · obtain ⟨old, hold, hsame⟩ := hbefore key e he
    rw [← hsame]
    exact h.key key old hold
  · obtain ⟨old, hold, hsame⟩ := hbefore key e he
    rw [hlocated.directory, ← hsame]
    exact h.child key old hold

theorem applyUpsert_ok {candidate : DiscoveredDll Path}
    (hchild : w.directory.containsDirectChild candidate.path = true) :
    ∃ impact next, applyUpsert candidate w = (.ok impact, next) ∧
      Changes w next (pathKey candidate.path)
        (upserted candidate (w.entries.get? (pathKey candidate.path))) ∧
      impact.path = candidate.path ∧
      (impact.kind = .unchanged ↔ ∃ e, w.entries.get? (pathKey candidate.path) = some e ∧
        sameBinary e candidate) := by
  unfold applyUpsert
  rw [read_bind, ensure_true hchild, pure_bind']
  dsimp only
  rcases hentry : w.entries.get? (pathKey candidate.path) with _ | e
  · refine ⟨_, _, rfl, .of_put rfl rfl rfl, rfl, nofun, ?_⟩
    rintro ⟨e, heq, _⟩
    cases heq
  · dsimp only
    by_cases hchanged : e.discovered.revision ≠ candidate.revision ∨
        e.discovered.byteLen ≠ candidate.byteLen
    · rw [if_pos hchanged]
      refine ⟨_, _, rfl, .of_put rfl rfl rfl, rfl, nofun, ?_⟩
      rintro ⟨other, heq, hrevision, hlen⟩
      cases heq
      rcases hchanged with hne | hne
      · exact absurd hrevision hne
      · exact absurd hlen hne
    · rw [if_neg hchanged]
      rw [not_or, not_not, not_not] at hchanged
      exact ⟨_, _, rfl, .of_put rfl rfl rfl, rfl,
        fun _ => ⟨e, rfl, hchanged⟩, fun _ => rfl⟩

theorem applyRemoved_ok {path : Path} {e : Entry Path}
    (hchild : w.directory.containsDirectChild path = true)
    (hentry : w.entries.get? (pathKey path) = some e) (hpresent : e.present = true) :
    ∃ impact next, applyRemoved path w = (.ok impact, next) ∧
      Changes w next (pathKey path) (vanished e) ∧ impact.path = path ∧ impact.kind = .removed := by
  have hread : entry (pathKey path) w = (.ok e, w) := by
    rw [entry, read_bind, hentry, require_some, pure_apply]
  unfold applyRemoved
  rw [read_bind, ensure_true hchild, pure_bind']
  dsimp only
  rw [bind_of_ok hread, if_neg (not_not.mpr hpresent)]
  exact ⟨_, _, rfl, .of_put rfl rfl rfl, rfl, rfl⟩

end Candidates

end AddonManager

namespace AddonManager

open Fallible

variable {Path : Type}

theorem applyEach_map {β γ : Type} (f : β → ManagerM Path (DirectoryImpact Path)) (g : γ → β)
    (items : List γ) : applyEach f (items.map g) = applyEach (fun item => f (g item)) items := by
  induction items with
  | nil => rfl
  | cons _ _ ih =>
    rw [List.map_cons]
    unfold applyEach
    rw [ih]

variable [HostPath Path]

def scannedKey (item : DiscoveredDll Path) : String := pathKey item.path

theorem nodup_of_noDuplicateKeys {sorted : List (DiscoveredDll Path)}
    (hsorted : sorted.Pairwise fun a b => scannedKey a ≤ scannedKey b)
    (hno : hasDuplicateKeys sorted = false) : (sorted.map scannedKey).Nodup := by
  have hlt : sorted.Pairwise fun a b => scannedKey a < scannedKey b := by
    induction sorted with
    | nil => exact .nil
    | cons first rest ih =>
      cases rest with
      | nil => exact List.pairwise_singleton _ _
      | cons second =>
        unfold hasDuplicateKeys at hno
        rw [Bool.or_eq_false_iff, decide_eq_false_iff_not] at hno
        obtain ⟨hhead, htail⟩ := List.pairwise_cons.mp hsorted
        have hfirst : scannedKey first < scannedKey second :=
          lt_of_le_of_ne (hhead second List.mem_cons_self) hno.1
        refine List.pairwise_cons.mpr ⟨fun item hitem => ?_, ih htail hno.2⟩
        rcases List.mem_cons.mp hitem with rfl | hmem
        · exact hfirst
        · exact lt_of_lt_of_le hfirst ((List.pairwise_cons.mp htail).1 item hmem)
  exact List.pairwise_map.mpr (hlt.imp fun h => ne_of_lt h)

def missing (w : AddonManager Path) (scanned : List (DiscoveredDll Path)) :
    SortedMap String (Entry Path) :=
  w.entries.filter fun key e => e.present && !(scanned.map scannedKey).contains key

variable {w : AddonManager Path} {scanned : List (DiscoveredDll Path)}

theorem get?_missing {key : String} {e : Entry Path} : (w.missing scanned).get? key = some e ↔
      w.entries.get? key = some e ∧ e.present = true ∧ key ∉ scanned.map scannedKey := by
  unfold missing
  rw [SortedMap.get?_filter, Option.filter_eq_some_iff]
  simp

variable [DecidableEq Path] {found : List (DiscoveredDll Path)}

theorem normalizeDiscovery_nodup {directory : AddonDirectory Path}
    (h : normalizeDiscovery directory found = .ok scanned) : (scanned.map scannedKey).Nodup := by
  unfold normalizeDiscovery at h
  split at h
  next => cases h
  next =>
    dsimp only at h
    split at h
    next => cases h
    next hno =>
      cases h
      exact nodup_of_noDuplicateKeys (List.pairwise_insertionSort _ _)
        (Bool.eq_false_of_not_eq_true hno)

theorem refreshDiscovery_ok (hplaced : Placed w)
    (hnormal : normalizeDiscovery w.directory found = .ok scanned) :
    ∃ upserts removals next,
      refreshDiscovery (.returned (.ok found)) w = (.ok (upserts ++ removals), next) ∧
      next.directory = w.directory ∧ next.ownerPaths = w.ownerPaths ∧
      (∀ item ∈ scanned, next.entries.get? (scannedKey item) =
        some (upserted item (w.entries.get? (scannedKey item)))) ∧
      (∀ key ∉ scanned.map scannedKey, next.entries.get? key =
        (w.entries.get? key).map fun e => if e.present then vanished e else e) ∧
      List.Forall₂ (fun item impact => impact.path = item.path ∧
        (impact.kind = .unchanged ↔ ∃ e, w.entries.get? (scannedKey item) = some e ∧
          sameBinary e item)) scanned upserts ∧
      List.Forall₂ (fun item impact => impact.path = item.2.discovered.path ∧
        impact.kind = .removed) (w.missing scanned).toList removals := by
  obtain ⟨_, hchildren⟩ := normalizeDiscovery_ok hnormal
  have hnodup := normalizeDiscovery_nodup hnormal
  -- the scanned candidates, one after the other
  obtain ⟨upserts, middle, hupserts, hdirectory, howners, hitems, hothers, hreports⟩ :=
    applyEach_ok applyUpsert scannedKey
      (fun directory item _ => directory.containsDirectChild item.path = true) upserted
      (fun item o impact => impact.path = item.path ∧
        (impact.kind = .unchanged ↔ ∃ e, o = some e ∧ sameBinary e item))
      (fun item v hchild => applyUpsert_ok hchild) hnodup (w := w) hchildren
  have hmissing : middle.missing scanned = w.missing scanned := by
    refine SortedMap.ext_get? fun key => Option.ext fun e => ?_
    rw [get?_missing, get?_missing]
    constructor
    · rintro ⟨hentry, hpresent, hkey⟩
      exact ⟨hothers key hkey ▸ hentry, hpresent, hkey⟩
    · rintro ⟨hentry, hpresent, hkey⟩
      exact ⟨(hothers key hkey).trans hentry, hpresent, hkey⟩
  -- the entries that the scan does not name
  obtain ⟨removals, next, hremovals, hdirectory', howners', hgone, hkept, hreports'⟩ :=
    applyEach_ok (fun item : String × Entry Path => applyRemoved item.2.discovered.path) Prod.fst
      (fun directory item o => o = some item.2 ∧ item.2.present = true ∧
        pathKey item.2.discovered.path = item.1 ∧
        directory.containsDirectChild item.2.discovered.path = true)
      (fun item _ => vanished item.2)
      (fun item _ impact => impact.path = item.2.discovered.path ∧ impact.kind = .removed)
      (fun item v hallowed => by
        obtain ⟨hentry, hpresent, hkey, hchild⟩ := hallowed
        rw [← hkey] at hentry
        obtain ⟨impact, next, hrun, hchanges, hreport⟩ := applyRemoved_ok hchild hentry hpresent
        exact ⟨impact, next, hrun, hkey ▸ hchanges, hreport⟩)
      ((w.missing scanned).sorted.imp fun h => ne_of_lt h)
      (w := middle) (fun item hitem => by
        obtain ⟨hentry, hpresent, hkey⟩ := get?_missing.mp (SortedMap.mem_toList_iff.mp hitem)
        refine ⟨(hothers _ hkey).trans hentry, hpresent, hplaced.key _ _ hentry, ?_⟩
        rw [hdirectory]
        exact hplaced.child _ _ hentry)
  have hkeys : ∀ key, key ∈ (w.missing scanned).toList.map Prod.fst ↔
      ∃ e, (w.missing scanned).get? key = some e := by
    intro key
    constructor
    · intro hmem
      obtain ⟨⟨_, e⟩, hitem, rfl⟩ := List.mem_map.mp hmem
      exact ⟨e, SortedMap.mem_toList_iff.mp hitem⟩
    · rintro ⟨e, hget⟩
      exact List.mem_map_of_mem (SortedMap.mem_toList_iff.mpr hget)
  refine ⟨upserts, removals, next, ?_, hdirectory'.trans hdirectory, howners'.trans howners,
    fun item hitem => ?_, fun key hkey => ?_, hreports, hreports'⟩
  · have hloop : applyEach applyRemoved ((middle.missing scanned).toList.map
        fun item => item.2.discovered.path) middle = (.ok removals, next) := by
      rw [applyEach_map, hmissing]
      exact hremovals
    change (ofExcept ManagerError.discovery (normalizeDiscovery w.directory found) >>=
      fun scanned => _) w = _
    rw [hnormal, ofExcept_ok, pure_bind']
    dsimp only
    rw [bind_of_ok hupserts, read_bind]
    exact bind_of_ok hloop _
  · rw [hkept, hitems item hitem]
    rw [hkeys]
    rintro ⟨e, hget⟩
    exact (get?_missing.mp hget).2.2 (List.mem_map_of_mem hitem)
  · rcases hentry : w.entries.get? key with _ | e
    · rw [hkept key fun hmem => ?_, hothers key hkey, hentry, Option.map_none]
      obtain ⟨e, hget⟩ := (hkeys key).mp hmem
      rw [(get?_missing.mp hget).1] at hentry
      cases hentry
    · rw [Option.map_some]
      by_cases hpresent : e.present = true
      · have hget : (w.missing scanned).get? key = some e :=
          get?_missing.mpr ⟨hentry, hpresent, hkey⟩
        rw [if_pos hpresent]
        exact hgone (key, e) (SortedMap.mem_toList_iff.mpr hget)
      · rw [if_neg hpresent, hkept key fun hmem => ?_, hothers key hkey, hentry]
        obtain ⟨other, hget⟩ := (hkeys key).mp hmem
        obtain ⟨hother, hyes, _⟩ := get?_missing.mp hget
        rw [hentry] at hother
        cases hother
        exact hpresent hyes

theorem map_eq_of_forall₂ {α β γ : Type} {f : α → γ} {g : β → γ} {first : List α} {second : List β}
    (h : List.Forall₂ (fun a b => g b = f a) first second) : second.map g = first.map f := by
  induction h with
  | nil => rfl
  | cons heq _ ih => rw [List.map_cons, List.map_cons, heq, ih]

/-- The entries after a scan: those of the scan are present and no others, every module stays with
its owner, and each scanned or newly missing path is reported once. -/
structure Reconciled (found : List (DiscoveredDll Path)) (w next : AddonManager Path)
    (impacts : List (DirectoryImpact Path)) : Prop where
  present : ∀ key, (∃ e, next.entries.get? key = some e ∧ e.present = true) ↔
    ∃ item ∈ found, scannedKey item = key
  scanned : ∀ item ∈ found, ∃ e, next.entries.get? (scannedKey item) = some e ∧
    e.discovered = item
  kept : ∀ key e, w.entries.get? key = some e → ∃ e', next.entries.get? key = some e' ∧
    e'.module = e.module ∧ e'.owner = e.owner
  ownerPaths : next.ownerPaths = w.ownerPaths
  once : (impacts.map fun impact => pathKey impact.path).Nodup
  reported : ∀ key, key ∈ impacts.map (fun impact => pathKey impact.path) ↔
    (∃ item ∈ found, scannedKey item = key) ∨
      (∃ e, w.entries.get? key = some e ∧ e.present = true) ∧ ¬∃ item ∈ found, scannedKey item = key

theorem refreshDiscovery_reconciles (hplaced : Placed w)
    (hnormal : normalizeDiscovery w.directory found = .ok scanned) :
    ∃ impacts next, refreshDiscovery (.returned (.ok found)) w = (.ok impacts, next) ∧
      next.directory = w.directory ∧ Reconciled found w next impacts ∧
      ((∀ item ∈ found, ∃ e, w.entries.get? (scannedKey item) = some e ∧ e.discovered = item) →
        (∀ key e, w.entries.get? key = some e → e.present = true →
          ∃ item ∈ found, scannedKey item = key) →
        ∀ impact ∈ impacts, impact.kind = .unchanged) := by
  obtain ⟨hperm, _⟩ := normalizeDiscovery_ok hnormal
  have hnodup := normalizeDiscovery_nodup hnormal
  obtain ⟨upserts, removals, next, hrun, hdirectory, howners, hitems, hothers, hupserts,
    hremovals⟩ := refreshDiscovery_ok hplaced hnormal
  have hmem : ∀ key, key ∈ scanned.map scannedKey ↔ ∃ item ∈ found, scannedKey item = key := by
    intro key
    rw [List.mem_map]
    exact exists_congr fun item => and_congr_left fun _ => hperm.mem_iff
  have hmissing : ∀ key, key ∈ (w.missing scanned).toList.map Prod.fst ↔
      (∃ e, w.entries.get? key = some e ∧ e.present = true) ∧ key ∉ scanned.map scannedKey := by
    intro key
    rw [List.mem_map]
    constructor
    · rintro ⟨⟨_, e⟩, hitem, rfl⟩
      obtain ⟨hentry, hpresent, hkey⟩ := get?_missing.mp (SortedMap.mem_toList_iff.mp hitem)
      exact ⟨⟨e, hentry, hpresent⟩, hkey⟩
    · rintro ⟨⟨e, hentry, hpresent⟩, hkey⟩
      have hget := get?_missing.mpr ⟨hentry, hpresent, hkey⟩
      exact ⟨(key, e), SortedMap.mem_toList_iff.mpr hget, rfl⟩
  have hkeys : (upserts ++ removals).map (fun impact => pathKey impact.path) =
      scanned.map scannedKey ++ (w.missing scanned).toList.map Prod.fst := by
    rw [List.map_append]
    congr 1
    · exact map_eq_of_forall₂ (hupserts.imp fun item impact h => congrArg pathKey h.1)
    · refine map_eq_of_forall₂ ?_
      refine ((List.forall₂_and_left _ _).mpr ⟨fun item hitem => ?_, hremovals⟩).imp
        fun item impact h => (congrArg pathKey h.2.1).trans h.1
      exact hplaced.key _ _ (get?_missing.mp (SortedMap.mem_toList_iff.mp hitem)).1
  refine ⟨_, next, hrun, hdirectory, ⟨fun key => ?_, fun item hitem => ?_, fun key e hentry => ?_,
    howners, ?_, fun key => ?_⟩, fun hknown hpresent impact himpact => ?_⟩
  · rw [← hmem]
    by_cases hkey : key ∈ scanned.map scannedKey
    · obtain ⟨item, hitem, rfl⟩ := List.mem_map.mp hkey
      refine iff_of_true ⟨_, hitems item hitem, ?_⟩ hkey
      cases w.entries.get? (scannedKey item) <;> rfl
    · refine iff_of_false ?_ hkey
      rw [hothers key hkey]
      rintro ⟨e, hentry, hpresent⟩
      obtain ⟨old, _, rfl⟩ := Option.map_eq_some_iff.mp hentry
      by_cases hold : old.present = true
      · rw [if_pos hold] at hpresent
        cases hpresent
      · rw [if_neg hold] at hpresent
        exact hold hpresent
  · refine ⟨_, hitems item (hperm.mem_iff.mpr hitem), ?_⟩
    cases w.entries.get? (scannedKey item) <;> rfl
  · by_cases hkey : key ∈ scanned.map scannedKey
    · obtain ⟨item, hitem, rfl⟩ := List.mem_map.mp hkey
      refine ⟨_, hitems item hitem, ?_⟩
      rw [hentry]
      exact ⟨rfl, rfl⟩
    · refine ⟨_, (hothers key hkey).trans (congrArg _ hentry), ?_⟩
      dsimp only
      split
      · exact ⟨rfl, rfl⟩
      · exact ⟨rfl, rfl⟩
  · rw [hkeys]
    refine List.nodup_append.mpr ⟨hnodup, (w.missing scanned).sorted.imp fun h => ne_of_lt h, ?_⟩
    rintro key hscanned other hother rfl
    exact ((hmissing key).mp hother).2 hscanned
  · rw [hkeys, List.mem_append, hmissing, hmem]
  · -- a scan of what is known already finds nothing new and nothing missing
    rcases List.mem_append.mp himpact with hupsert | hremoval
    · obtain ⟨index, hindex, rfl⟩ := List.mem_iff_getElem.mp hupsert
      have hlt : index < scanned.length := hupserts.length_eq ▸ hindex
      obtain ⟨_, hkind⟩ := (List.forall₂_iff_get.mp hupserts).2 index hlt hindex
      obtain ⟨e, hentry, hsame⟩ := hknown scanned[index]
        (hperm.mem_iff.mp (List.getElem_mem hlt))
      exact hkind.mpr ⟨e, hentry, by rw [sameBinary, hsame]; exact ⟨rfl, rfl⟩⟩
    · have hnone : (w.missing scanned).toList = [] := by
        refine List.eq_nil_iff_forall_not_mem.mpr fun item hitem => ?_
        obtain ⟨⟨e, hentry, hyes⟩, hkey⟩ := (hmissing item.1).mp (List.mem_map_of_mem hitem)
        exact hkey ((hmem item.1).mpr (hpresent item.1 e hentry hyes))
      rw [hnone] at hremovals
      cases hremovals
      cases hremoval

end AddonManager

end Nexus
