import Nexus.GameBindDocument

namespace Nexus

namespace GameBindRegistry

variable {library : XmlLibrary}

def reloaded (registry : GameBindRegistry) : GameBindRegistry :=
  reloadActions registry registry.bindings.toList
    { withDefaults with rootExtra := registry.rootExtra }

variable {registry : GameBindRegistry}

theorem documentTags_eq (h : registry.Shape) :
    registry.documentTags =
      .decl "1.0" "UTF-8" :: .start "InputBindings" registry.rootExtra.toList ::
        (registry.bindings.toList.map (fun item =>
          .empty "action" (registry.xmlActionAttributes item.1 item.2)) ++
            [.close "InputBindings"]) := by
  have hall : registry.bindings.toList.filter
      (fun item => item.1 ≠ GameBindId.legacyMoveSwimUp) = registry.bindings.toList := by
    refine List.filter_eq_self.mpr fun item hitem => ?_
    rw [decide_eq_true_iff]
    intro heq
    have hget : registry.bindings.get? item.1 = some item.2 := SortedMap.get?_of_mem hitem
    rw [heq, h.legacy] at hget
    cases hget
  unfold documentTags
  rw [hall]
  rfl

def savedBytes (library : XmlLibrary) (registry : GameBindRegistry) : Nat :=
  XmlText.bytes library.escape registry.documentTags + 1

theorem utf8ByteSize_saveXml (registry : GameBindRegistry) :
    (saveXml library registry).utf8ByteSize = savedBytes library registry := by
  have hline : "\n".utf8ByteSize = 1 := rfl
  unfold saveXml savedBytes
  rw [String.utf8ByteSize_append, XmlText.utf8ByteSize_render, hline]

theorem saved_ids (h : registry.Shape) :
    ∀ item ∈ registry.bindings.toList, item.1 ≠ GameBindId.legacyMoveSwimUp := by
  intro item hitem heq
  have hget : registry.bindings.get? item.1 = some item.2 := SortedMap.get?_of_mem hitem
  rw [heq, h.legacy] at hget
  cases hget

theorem foldlM_documentTags (h : registry.Shape) :
    (registry.documentTags.map XmlTag.event).foldlM XmlLoad.event XmlLoad.start =
      if maxXmlActions < registry.bindings.toList.length then .error .limitExceeded
      else .ok ⟨registry.reloaded, 0, true, ⟨registry.bindings.toList.length, 0⟩,
        registry.bindings.toList.length⟩ := by
  -- the state behind the declaration and the root tag
  let opened : XmlLoad :=
    ⟨{ withDefaults with rootExtra := registry.rootExtra }, 1, true, ⟨0, 0⟩, 0⟩
  have hopen : XmlLoad.start.event (XmlTag.start "InputBindings"
      registry.rootExtra.toList).event = .ok opened := by
    show (XmlLoad.start.root (registry.rootExtra.toList.map some) >>= _) = _
    unfold XmlLoad.root
    rw [parseAttributes_written, readAttributes_toList]
    rfl
  have hcount : opened.actionCount + registry.bindings.toList.length =
      registry.bindings.toList.length := Nat.zero_add _
  have hactions := XmlLoad.events_saved h registry.bindings.toList (saved_ids h)
    (show opened.depth = 1 from rfl) (Nat.zero_le maxXmlActions)
  rw [hcount] at hactions
  have hdecl : XmlLoad.start.event (XmlTag.decl "1.0" "UTF-8").event = .ok XmlLoad.start := rfl
  rw [documentTags_eq h, List.map_cons, List.map_cons, List.map_append, List.foldlM_cons, hdecl]
  show List.foldlM XmlLoad.event XmlLoad.start _ = _
  rw [List.foldlM_cons, hopen]
  show List.foldlM XmlLoad.event opened _ = _
  rw [List.foldlM_append, hactions]
  split
  · rfl
  · show Except.ok _ = Except.ok _
    unfold XmlLoad.savedActions
    rw [hcount]
    rfl

theorem parseXml_saved (h : registry.Shape)
    (hread : library.ReadsAs (saveXml library registry) registry.documentTags) :
    parseXml library (saveXml library registry) =
      if maxXmlBytes < savedBytes library registry ∨
          maxXmlActions < registry.bindings.toList.length then .error .limitExceeded
      else .ok (⟨registry.bindings.toList.length, 0⟩, registry.reloaded) := by
  obtain ⟨hcomplete, hevents⟩ := hread
  unfold parseXml
  rw [utf8ByteSize_saveXml]
  by_cases hbytes : maxXmlBytes < savedBytes library registry
  · rw [if_pos hbytes, if_pos (Or.inl hbytes)]
  rw [if_neg hbytes, XmlLoad.foldlM_filter_text, hevents, foldlM_documentTags h, hcomplete]
  by_cases hfull : maxXmlActions < registry.bindings.toList.length
  · rw [if_pos hfull, if_pos (Or.inr hfull)]
    rfl
  · rw [if_neg hfull, if_neg (fun hor => hor.elim hbytes hfull)]
    rfl

theorem reloaded_bindings (h : registry.Shape) (id : GameBindId) :
    registry.reloaded.bindings.get? id =
      (registry.bindings.get? id).map (reloadedBinding (withDefaults.bindings.get? id)) := by
  have hnodup : (registry.bindings.toList.map Prod.fst).Nodup :=
    registry.bindings.sorted.imp fun hlt => ne_of_lt hlt
  have hload := reloadActions_bindings registry registry.bindings.toList hnodup
    { withDefaults with rootExtra := registry.rootExtra } id
  have hget : registry.bindings.get? id = SortedMap.find id registry.bindings.toList := rfl
  have hdefaults := h.defaults id
  unfold reloaded
  rw [hload, hget]
  rw [hget] at hdefaults
  clear hload hget
  generalize withDefaults.bindings.get? id = base at hdefaults ⊢
  generalize SortedMap.find id registry.bindings.toList = saved at hdefaults ⊢
  rcases saved with _ | _
  · -- an action that is not saved is not in the default table either
    rcases base with _ | base
    · rfl
    · cases hdefaults rfl
  · rfl

theorem reloaded_actionExtra (h : registry.Shape) :
    registry.reloaded.actionExtra = registry.actionExtra := by
  refine SortedMap.ext_get? fun id => ?_
  unfold reloaded
  rw [reloadActions_extra]
  show (if _ then (registry.actionExtra.get? id).or none else none) = _
  rw [Option.or_none]
  split
  · rfl
  next hnotin =>
    rcases hget : registry.actionExtra.get? id with _ | extra
    · rfl
    · obtain ⟨_, hbinding⟩ := Option.isSome_iff_exists.mp (h.extra_bound id extra hget)
      exact absurd (List.mem_map_of_mem (SortedMap.get?_mem hbinding)) hnotin

theorem base_saveable (id : GameBindId) :
    ((withDefaults.bindings.get? id).getD .default).primary.Saveable ∧
      ((withDefaults.bindings.get? id).getD .default).secondary.Saveable := by
  rcases hget : withDefaults.bindings.get? id with _ | base
  · exact ⟨InputBind.default_saveable, InputBind.default_saveable⟩
  · exact (withDefaults_fresh id base hget).2

theorem reloadedBinding_eq_iff (h : registry.Shape) {id : GameBindId} {binding : MultiInputBind}
    (hget : registry.bindings.get? id = some binding) :
    reloadedBinding (withDefaults.bindings.get? id) binding = binding ↔
      binding.primary.Saveable ∧ binding.secondary.Saveable := by
  obtain ⟨hprimary, hsecondary⟩ := h.normalized id binding hget
  obtain ⟨hbase, hbase'⟩ := base_saveable id
  constructor
  · intro heq
    constructor
    · by_contra hlossy
      exact reloadedSlot_of_not_saveable hlossy hprimary hbase (congrArg MultiInputBind.primary heq)
    · by_contra hlossy
      exact reloadedSlot_of_not_saveable hlossy hsecondary hbase'
        (congrArg MultiInputBind.secondary heq)
  · rintro ⟨hsave, hsave'⟩
    unfold reloadedBinding
    rw [reloadedSlot_of_saveable hsave, reloadedSlot_of_saveable hsave']
    rfl

/-- The saved document is accepted by any registry, and keeps the bindings of every action and the
extra attributes. -/
def RoundTrips (library : XmlLibrary) (registry : GameBindRegistry) : Prop :=
  ∀ other : GameBindRegistry, ∃ report loaded,
    other.loadXml library (registry.saveXml library) = (.ok report, loaded) ∧
      (∀ action, loaded.bindings.get? action = registry.bindings.get? action) ∧
      loaded.rootExtra = registry.rootExtra ∧ loaded.actionExtra = registry.actionExtra

theorem roundTrips_iff_of_shape (h : registry.Shape)
    (hread : library.ReadsAs (saveXml library registry) registry.documentTags) :
    registry.RoundTrips library ↔
      (∀ action binding, registry.bindings.get? action = some binding →
        binding.primary.Saveable ∧ binding.secondary.Saveable) ∧
      registry.bindings.toList.length ≤ maxXmlActions ∧
      savedBytes library registry ≤ maxXmlBytes := by
  have hparse := parseXml_saved h hread
  constructor
  · intro htrips
    obtain ⟨_, _, hload, hbindings, _, _⟩ := htrips registry
    unfold loadXml at hload
    rw [hparse] at hload
    split at hload
    next heq =>
      split at heq
      · cases heq
      next hlimits =>
      cases heq
      cases hload
      refine ⟨fun action binding hget => ?_, not_lt.mp fun hlt => hlimits (Or.inr hlt),
        not_lt.mp fun hlt => hlimits (Or.inl hlt)⟩
      have hsame := hbindings action
      rw [reloaded_bindings h, hget] at hsame
      exact (reloadedBinding_eq_iff h hget).mp (Option.some.inj hsame)
    next => cases hload
  · rintro ⟨hslots, hactions, hbytes⟩ other
    have hlimits : ¬(maxXmlBytes < savedBytes library registry ∨
        maxXmlActions < registry.bindings.toList.length) := by omega
    refine ⟨⟨registry.bindings.toList.length, 0⟩, registry.reloaded, ?_, fun action => ?_,
      reloadActions_rootExtra .., reloaded_actionExtra h⟩
    · unfold loadXml
      rw [hparse, if_neg hlimits]
    · rw [reloaded_bindings h]
      rcases hget : registry.bindings.get? action with _ | binding
      · rfl
      · exact congrArg some ((reloadedBinding_eq_iff h hget).mpr (hslots action binding hget))

def readerOf (registry : GameBindRegistry) : XmlLibrary where
  escape := id
  read text :=
    if text = XmlText.render id registry.documentTags ++ "\n" then
      ⟨registry.documentTags.map XmlTag.event, true⟩
    else ⟨[], false⟩

theorem readerOf_readsAs (registry : GameBindRegistry) :
    (readerOf registry).ReadsAs (saveXml (readerOf registry) registry) registry.documentTags := by
  have hread : (readerOf registry).read (saveXml (readerOf registry) registry) =
      ⟨registry.documentTags.map XmlTag.event, true⟩ := if_pos rfl
  unfold XmlLibrary.ReadsAs
  rw [hread]
  refine ⟨rfl, List.filter_eq_self.mpr fun event hevent => ?_⟩
  obtain ⟨tag, _, rfl⟩ := List.mem_map.mp hevent
  cases tag <;> rfl

end GameBindRegistry

namespace GameXmlOp

/-- A saved registry is loaded as it was exactly when every slot is one that the document has words
for, and the document keeps the limits of the loader. -/
theorem saved_document_round_trips_iff (library : XmlLibrary) (ops : List GameXmlOp)
    (hread : library.ReadsAs ((run library ops).saveXml library) (run library ops).documentTags) :
    (run library ops).RoundTrips library ↔
      (∀ action binding, (run library ops).bindings.get? action = some binding →
        binding.primary.Saveable ∧ binding.secondary.Saveable) ∧
      (run library ops).bindings.toList.length ≤ maxXmlActions ∧
      GameBindRegistry.savedBytes library (run library ops) ≤ maxXmlBytes :=
  GameBindRegistry.roundTrips_iff_of_shape (run_shape library ops) hread

theorem saved_document_round_trips_iff_defaults :
    (run (GameBindRegistry.readerOf .withDefaults) []).RoundTrips
        (GameBindRegistry.readerOf .withDefaults) ↔
      (∀ action binding, (run (GameBindRegistry.readerOf .withDefaults) []).bindings.get? action =
        some binding → binding.primary.Saveable ∧ binding.secondary.Saveable) ∧
      (run (GameBindRegistry.readerOf .withDefaults) []).bindings.toList.length ≤ maxXmlActions ∧
      GameBindRegistry.savedBytes (GameBindRegistry.readerOf .withDefaults)
        (run (GameBindRegistry.readerOf .withDefaults) []) ≤ maxXmlBytes :=
  saved_document_round_trips_iff (GameBindRegistry.readerOf .withDefaults) []
    (GameBindRegistry.readerOf_readsAs .withDefaults)

def windowsKey : InputBind := ⟨false, false, false, .keyboard, 0xE05B⟩

def boundToWindowsKey : GameBindRegistry :=
  (GameBindRegistry.withDefaults.set 0 .primary windowsKey).2

/-- The saved registry comes back with the left Alt key in the place of the Windows key. -/
theorem windows_key_not_round_tripped :
    ∃ library ops, library.ReadsAs ((run library ops).saveXml library)
        (run library ops).documentTags ∧ ¬(run library ops).RoundTrips library := by
  refine ⟨GameBindRegistry.readerOf boundToWindowsKey, [.set 0 .primary windowsKey],
    GameBindRegistry.readerOf_readsAs boundToWindowsKey, fun htrips => ?_⟩
  have hshape : boundToWindowsKey.Shape :=
    GameBindRegistry.set_shape GameBindRegistry.withDefaults_shape 0 .primary windowsKey
  obtain ⟨hslots, _⟩ := (GameBindRegistry.roundTrips_iff_of_shape hshape
    (GameBindRegistry.readerOf_readsAs boundToWindowsKey)).mp htrips
  have hget : boundToWindowsKey.bindings.get? 0 =
      some (((GameBindRegistry.withDefaults.bindings.get? 0).getD .default).setSlot .primary
        windowsKey.normalized) := by
    unfold boundToWindowsKey GameBindRegistry.set
    rw [if_neg (by decide)]
    exact (SortedMap.get?_put _ _ _ _).trans (if_pos rfl)
  exact absurd (hslots 0 _ hget).1 (by decide)

end GameXmlOp

end Nexus
