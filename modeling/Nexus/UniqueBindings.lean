import Nexus.ManagedMoves
import Mathlib.Data.List.Induction

namespace Nexus

namespace ManagedInputBinds

def Unique (state : ManagedInputBinds) : Prop :=
  ∀ first second binding, binding.isBound = true → state.bindingOf first = some binding →
    state.bindingOf second = some binding → first = second

/-- No two identifiers hold the same bound combination, so a press selects the only identifier
that has it. -/
structure ConflictFree (state : ManagedInputBinds) : Prop where
  unique : state.Unique
  selects : ∀ binding, binding.isBound = true → ∀ identifier mapping,
    ManagedWorld.selected state binding = some (identifier, mapping) →
    ∀ other, state.bindingOf other = some binding ↔ other = identifier

variable {state : ManagedInputBinds} {identifier : String}

theorem bindingOf_of_mem {mapping : Mapping} (h : (identifier, mapping) ∈ state.registry.toList) :
    state.bindingOf identifier = some mapping.binding := by
  unfold bindingOf
  rw [SortedMap.get?_of_mem h]
  rfl

variable {binding : InputBind}

theorem mem_of_bindingOf (h : state.bindingOf identifier = some binding) :
    ∃ mapping, (identifier, mapping) ∈ state.registry.toList ∧ mapping.binding = binding := by
  obtain ⟨mapping, hget, hbinding⟩ := Option.map_eq_some_iff.mp h
  exact ⟨mapping, SortedMap.get?_mem hget, hbinding⟩

theorem Unique.conflictFree (h : state.Unique) : state.ConflictFree := by
  refine ⟨h, fun binding hbound identifier mapping hselected other => ?_⟩
  have hmem := List.mem_of_find?_eq_some hselected
  have hbinding : mapping.binding = binding := by simpa using List.find?_some hselected
  have hown : state.bindingOf identifier = some binding := by
    rw [bindingOf_of_mem hmem, hbinding]
  constructor
  · intro hother
    exact h other identifier binding hbound hother hown
  · rintro rfl
    exact hown

theorem findConflict_none {other : String}
    (h : findConflict state.registry identifier binding = none) (hbound : binding.isBound = true)
    (hne : other ≠ identifier) : state.bindingOf other ≠ some binding := by
  intro hother
  obtain ⟨mapping, hmem, hbinding⟩ := mem_of_bindingOf hother
  unfold findConflict at h
  rw [if_pos hbound] at h
  have hno := List.find?_eq_none.mp (Option.map_eq_none_iff.mp h) (other, mapping) hmem
  exact hno (by simp [hne, hbinding])

theorem bindingOf_put {before after : ManagedInputBinds} {identifier : String} {mapping : Mapping}
    (h : after.registry = before.registry.put identifier mapping) (other : String) :
    after.bindingOf other =
      if other = identifier then some mapping.binding else before.bindingOf other := by
  unfold bindingOf
  rw [h, SortedMap.get?_put]
  split <;> rfl

variable {before after : ManagedInputBinds}

theorem bindingOf_erase (h : after.registry = before.registry.erase identifier) (other : String) :
    after.bindingOf other = if other = identifier then none else before.bindingOf other := by
  unfold bindingOf
  rw [h, SortedMap.get?_erase]
  split <;> rfl

theorem Unique.assign (h : before.Unique)
    (hfree : binding.isBound = true → ∀ other, other ≠ identifier →
      before.bindingOf other ≠ some binding) (hb : ∀ other, after.bindingOf other =
      if other = identifier then some binding else before.bindingOf other) : after.Unique := by
  intro first second found hbound hfirst hsecond
  rw [hb] at hfirst hsecond
  by_cases h₁ : first = identifier
  · by_cases h₂ : second = identifier
    · rw [h₁, h₂]
    · rw [if_pos h₁] at hfirst
      rw [if_neg h₂] at hsecond
      obtain rfl := Option.some.inj hfirst
      exact absurd hsecond (hfree hbound second h₂)
  · by_cases h₂ : second = identifier
    · rw [if_neg h₁] at hfirst
      rw [if_pos h₂] at hsecond
      obtain rfl := Option.some.inj hsecond
      exact absurd hfirst (hfree hbound first h₁)
    · rw [if_neg h₁] at hfirst
      rw [if_neg h₂] at hsecond
      exact h first second found hbound hfirst hsecond

theorem Unique.move (h : before.Unique) (hmove : RegistryMove before after) : after.Unique := by
  cases hmove with
  | keep hregistry =>
    intro first second binding hbound hfirst hsecond
    unfold bindingOf at hfirst hsecond
    rw [hregistry] at hfirst hsecond
    exact h first second binding hbound hfirst hsecond
  | put identifier mapping _ hbinding _ hregistry =>
    refine h.assign (fun hbound other hne => ?_) (bindingOf_put hregistry)
    rcases hbinding with hold | ⟨_, hconflict⟩
    · intro hother
      exact hne (h other identifier mapping.binding hbound hother hold)
    · exact findConflict_none hconflict hbound hne
  | erase _ hregistry =>
    intro first second binding hbound hfirst hsecond
    rw [bindingOf_erase hregistry] at hfirst hsecond
    split at hfirst
    next => cases hfirst
    next =>
      split at hsecond
      next => cases hsecond
      next => exact h first second binding hbound hfirst hsecond

theorem Unique.moves (h : before.Unique) (hmoves : RegistryMoves before after) : after.Unique := by
  induction hmoves with
  | refl => exact h
  | tail _ hmove ih => exact ih.move hmove

def lastBinding (identifier : String) : List JsonParsed → Option InputBind
  | [] => none
  | .known name binding _ _ :: rest =>
    (lastBinding identifier rest).or (if name = identifier then some binding else none)
  | .opaqueValue _ :: rest => lastBinding identifier rest

theorem bindingOf_applyEntries (identifier : String) (entries : List JsonParsed) :
    ∀ (seen : List String) (state : ManagedInputBinds),
      (ManagedWorld.applyEntries entries seen state).bindingOf identifier =
        (lastBinding identifier entries).or (state.bindingOf identifier) := by
  induction entries with
  | nil => exact fun _ _ => rfl
  | cons entry _ ih =>
    intro seen state
    cases entry with
    | known name =>
      simp only [ManagedWorld.applyEntries, ManagedWorld.applyParsed, lastBinding]
      rw [ih, Option.or_assoc]
      congr 1
      rw [@bindingOf_put state _ name _ rfl]
      by_cases hname : identifier = name
      · rw [if_pos hname, if_pos hname.symm]
        rfl
      · rw [if_neg hname, if_neg (Ne.symm hname)]
        rfl
    | opaqueValue =>
      simp only [ManagedWorld.applyEntries, ManagedWorld.applyParsed, lastBinding]
      rw [ih]
      rfl

/-- The last entries of a document have different bound combinations, and none that an
identifier outside the document holds. -/
def LoadFits (state : ManagedInputBinds) (entries : List JsonParsed) : Prop :=
  ∀ first second binding, first ≠ second → binding.isBound = true →
    lastBinding first entries = some binding →
    lastBinding second entries ≠ some binding ∧
      (lastBinding second entries = none → state.bindingOf second ≠ some binding)

theorem unique_applyEntries_iff (h : state.Unique) (entries : List JsonParsed)
    (seen : List String) :
    (ManagedWorld.applyEntries entries seen state).Unique ↔ LoadFits state entries := by
  constructor
  · intro hunique first second binding hne hbound hfirst
    have hown : (ManagedWorld.applyEntries entries seen state).bindingOf first = some binding := by
      rw [bindingOf_applyEntries, hfirst]
      rfl
    constructor
    · intro hsecond
      refine hne (hunique first second binding hbound hown ?_)
      rw [bindingOf_applyEntries, hsecond]
      rfl
    · intro hnone hsecond
      refine hne (hunique first second binding hbound hown ?_)
      rw [bindingOf_applyEntries, hnone, hsecond]
      rfl
  · intro hfits first second binding hbound hfirst hsecond
    rw [bindingOf_applyEntries] at hfirst hsecond
    by_contra hne
    rcases h₁ : lastBinding first entries with _ | _
    · rw [h₁, Option.none_or] at hfirst
      rcases h₂ : lastBinding second entries with _ | b₂
      · rw [h₂, Option.none_or] at hsecond
        exact hne (h first second binding hbound hfirst hsecond)
      · rw [h₂, Option.some_or] at hsecond
        rw [hsecond] at h₂
        exact (hfits second first binding (Ne.symm hne) hbound h₂).2 h₁ hfirst
    · rw [h₁, Option.some_or] at hfirst
      rw [hfirst] at h₁
      obtain ⟨hdocument, houtside⟩ := hfits first second binding hne hbound h₁
      rcases h₂ : lastBinding second entries with _ | b₂
      · rw [h₂, Option.none_or] at hsecond
        exact houtside h₂ hsecond
      · rw [h₂, Option.some_or] at hsecond
        rw [hsecond] at h₂
        exact hdocument h₂

theorem unique_default : default.Unique := by
  intro first second binding _ hfirst _
  cases hfirst

end ManagedInputBinds

namespace ManagedOp

open ManagedInputBinds

def Fits (platform : ManagedPlatform) (world : ManagedWorld) (op : ManagedOp) : Prop :=
  ∀ source entries, op = .loadJson source →
    ManagedWorld.parseDocument platform.json source = .ok entries →
    LoadFits world.toManagedInputBinds entries

theorem unique_step_iff (platform : ManagedPlatform) {world : ManagedWorld} (h : world.Unique)
    (op : ManagedOp) : (op.step platform world).Unique ↔ op.Fits platform world := by
  by_cases hload : ∃ source, op = .loadJson source
  · obtain ⟨source, rfl⟩ := hload
    rw [step_load]
    rcases hparse : ManagedWorld.parseDocument platform.json source with _ | entries
    · refine iff_of_true h fun other entries heq hok => ?_
      cases heq
      rw [hparse] at hok
      cases hok
    · have hempty : Unique { world.toManagedInputBinds with jsonSlots := [] } := h
      have hiff := unique_applyEntries_iff hempty entries []
      constructor
      · intro hunique other found heq hok
        cases heq
        rw [hparse] at hok
        cases hok
        exact hiff.mp hunique
      · intro hfits
        exact hiff.mpr (hfits source entries rfl hparse)
  · have hplain : ∀ source, op ≠ .loadJson source := fun source heq => hload ⟨source, heq⟩
    refine iff_of_true (h.moves (step_moves platform world hplain)) fun source entries heq => ?_
    exact absurd heq (hplain source)

/-- The bindings stay free of conflicts in every state of a run exactly when each of its loads
fits the registry it is applied to. -/
theorem bindings_conflict_free_iff (platform : ManagedPlatform) (ops : List ManagedOp) :
    (∀ before after, ops = before ++ after →
      (run platform before).toManagedInputBinds.ConflictFree) ↔
    ∀ before op after, ops = before ++ op :: after → op.Fits platform (run platform before) := by
  constructor
  · intro hall before op after heq
    have hunique := (hall before (op :: after) heq).unique
    have hnext := (hall (before ++ [op]) after (by rw [heq, List.append_assoc]; rfl)).unique
    rw [run_append] at hnext
    exact (unique_step_iff platform hunique op).mp hnext
  · intro hfits
    suffices h : ∀ before after, ops = before ++ after →
        (run platform before).toManagedInputBinds.Unique from
      fun before after heq => (h before after heq).conflictFree
    intro before
    induction before using List.reverseRecOn with
    | nil => exact fun _ _ => unique_default
    | append_singleton before op ih =>
      intro after heq
      rw [List.append_assoc] at heq
      rw [run_append]
      exact (unique_step_iff platform (ih _ heq) op).mpr (hfits before op after heq)

/-- A document that gives two identifiers the same key, as text and as its tree. -/
def twinDocument : String × JsonValue :=
  ("[\x7b\"Identifier\":\"a\",\"Key\":30\x7d,\x7b\"Identifier\":\"b\",\"Key\":30\x7d]",
    .array [.object [("Identifier", .string "a"), ("Key", .number (.posInt 30))],
      .object [("Identifier", .string "b"), ("Key", .number (.posInt 30))]])

/-- The loaded document leaves two identifiers with one combination. -/
theorem load_conflicts :
    ∃ platform : ManagedPlatform, platform.json.parse twinDocument.1 = some twinDocument.2 ∧
      ¬(run platform [.loadJson twinDocument.1]).toManagedInputBinds.ConflictFree := by
  refine ⟨⟨3, fun _ => ⟨.returned (), .returned true, []⟩, ⟨fun source =>
    if source = twinDocument.1 then some twinDocument.2 else none, fun _ => "", id⟩⟩,
    by simp, fun h => ?_⟩
  have hsame := h.unique "a" "b" ⟨false, false, false, .keyboard, 30⟩ rfl
    (by decide +kernel) (by decide +kernel)
  exact absurd hsame (by decide)

end ManagedOp

end Nexus
