import Nexus.TextureDelivery

namespace Nexus.Textures

open StepRuns

section Restored

variable {state : RegistryState} {identifier : String} {texture : TextureHandle}

def Shadows (state : RegistryState) (identifier shadowAlias : String) (texture : TextureHandle) :
    Prop := ∃ pending, state.pending.get? identifier = some pending ∧
      pending.shadowed = some ⟨shadowAlias, texture⟩

variable {shadowAlias : String}

theorem cancelPending_restores (hfree : state.registry.get? identifier = none)
    (h : Shadows state identifier shadowAlias texture) :
    (cancelPending state identifier).registry.get? identifier = some texture := by
  obtain ⟨_, hget, hshadowed⟩ := h
  unfold cancelPending
  rw [hget]
  dsimp only
  unfold restoreShadow
  rw [hshadowed]
  dsimp only
  rw [if_neg (by rw [hfree]; exact Bool.false_ne_true)]
  exact SortedMap.get?_put_self ..

variable {other : String}

theorem cancelPending_tracks (hother : state.registry.get? other = some texture)
    (hne : other ≠ identifier) (hfree : state.registry.get? identifier = none) :
    (cancelPending state identifier).registry.get? other = some texture ∨
      Shadows state identifier other texture ∧
        (cancelPending state identifier).registry.get? identifier = some texture := by
  rcases hget : state.pending.get? identifier with _ | pending
  · refine Or.inl ?_
    unfold cancelPending
    rw [hget]
    exact hother
  rcases hshadowed : pending.shadowed with _ | ⟨shadowAlias, found⟩
  · refine Or.inl ?_
    unfold cancelPending
    rw [hget]
    dsimp only
    rw [hshadowed]
    exact hother
  have hshadows : Shadows state identifier shadowAlias found := ⟨pending, hget, hshadowed⟩
  have hrestored := cancelPending_restores hfree hshadows
  by_cases halias : other = shadowAlias ∧ texture = found
  · obtain ⟨rfl, rfl⟩ := halias
    exact Or.inr ⟨hshadows, hrestored⟩
  · refine Or.inl ?_
    unfold cancelPending
    rw [hget]
    dsimp only
    unfold restoreShadow
    rw [hshadowed]
    dsimp only
    rw [if_neg (by rw [hfree]; exact Bool.false_ne_true), SortedMap.get?_put, if_neg hne]
    split
    next hfound =>
      rw [SortedMap.get?_erase, if_neg]
      · exact hother
      · rintro rfl
        exact halias ⟨rfl, Option.some.inj (hother.symm.trans hfound)⟩
    next => exact hother

theorem cancelPending_free (hfree : state.registry.get? other = none) (hne : other ≠ identifier) :
    (cancelPending state identifier).registry.get? other = none := by
  unfold cancelPending
  split
  · exact hfree
  next pending _ =>
    rcases hfound : (restoreShadow state.registry identifier pending.shadowed).get? other with
      _ | texture
    · rfl
    · rw [restoreShadow_found hfound hne] at hfree
      cases hfree

theorem shadows_cancelPending (hne : other ≠ identifier) :
    Shadows (cancelPending state identifier) other shadowAlias texture ↔
      Shadows state other shadowAlias texture := by
  unfold Shadows
  rw [cancelPending_get?, if_neg hne]

variable {order : List String}

/-- While requests are cancelled, a texture stays at its identifier or goes to a cancelled request
that had shadowed it from there. -/
theorem foldl_cancelPending_tracks (horder : order.Nodup)
    (hfree : ∀ other ∈ order, state.registry.get? other = none) {start : String}
    (hstart : state.registry.get? start = some texture) (hnotMem : start ∉ order) :
    (∃ other, (order.foldl cancelPending state).registry.get? other = some texture ∧
      (other = start ∨ other ∈ order ∧ ∃ shadowAlias, Shadows state other shadowAlias texture)) ∧
    ((∀ other ∈ order, ¬ Shadows state other start texture) →
      (order.foldl cancelPending state).registry.get? start = some texture) := by
  induction order generalizing state start with
  | nil => exact ⟨⟨start, hstart, Or.inl rfl⟩, fun _ => hstart⟩
  | cons first order ih =>
    obtain ⟨hfirst, hnodup⟩ := List.nodup_cons.mp horder
    have hne : start ≠ first := fun h => hnotMem (h ▸ List.mem_cons_self)
    have hfirstFree := hfree first List.mem_cons_self
    have hrestFree : ∀ other ∈ order, (cancelPending state first).registry.get? other = none := by
      intro other hother
      exact cancelPending_free (hfree other (List.mem_cons_of_mem _ hother))
        fun h => hfirst (h ▸ hother)
    have hshadows : ∀ other ∈ order, ∀ shadowAlias,
        Shadows (cancelPending state first) other shadowAlias texture ↔
          Shadows state other shadowAlias texture :=
      fun other hother shadowAlias => shadows_cancelPending fun h => hfirst (h ▸ hother)
    rw [List.foldl_cons]
    rcases cancelPending_tracks hstart hne hfirstFree with hstays | ⟨htaken, hmoved⟩
    · obtain ⟨⟨other, hother, hfrom⟩, hstill⟩ := ih hnodup hrestFree hstays
        fun h => hnotMem (List.mem_cons_of_mem _ h)
      refine ⟨⟨other, hother, ?_⟩, fun hnone => hstill fun found hfound hshadow => ?_⟩
      · rcases hfrom with rfl | ⟨hmem, shadowAlias, hshadow⟩
        · exact Or.inl rfl
        · exact Or.inr ⟨List.mem_cons_of_mem _ hmem, shadowAlias,
            (hshadows other hmem shadowAlias).mp hshadow⟩
      · exact hnone found (List.mem_cons_of_mem _ hfound)
          ((hshadows found hfound start).mp hshadow)
    · obtain ⟨⟨other, hother, hfrom⟩, _⟩ := ih hnodup hrestFree hmoved hfirst
      refine ⟨⟨other, hother, Or.inr ?_⟩, fun hnone => absurd htaken (hnone first
        List.mem_cons_self)⟩
      rcases hfrom with rfl | ⟨hmem, shadowAlias, hshadow⟩
      · exact ⟨List.mem_cons_self, start, htaken⟩
      · exact ⟨List.mem_cons_of_mem _ hmem, shadowAlias,
          (hshadows other hmem shadowAlias).mp hshadow⟩

/-- After the requests are cancelled every texture that one of them shadowed is back, at its
identifier or, where another of them had shadowed it from there, at that one's. -/
theorem foldl_cancelPending_restores (horder : order.Nodup)
    (hfree : ∀ other ∈ order, state.registry.get? other = none) (hmem : identifier ∈ order)
    (h : Shadows state identifier shadowAlias texture) :
    (∃ other ∈ order, (order.foldl cancelPending state).registry.get? other = some texture ∧
      ∃ shadowAlias, Shadows state other shadowAlias texture) ∧
    ((∀ other ∈ order, ¬ Shadows state other identifier texture) →
      (order.foldl cancelPending state).registry.get? identifier = some texture) := by
  induction order generalizing state with
  | nil => cases hmem
  | cons first order ih =>
    obtain ⟨hfirst, hnodup⟩ := List.nodup_cons.mp horder
    have hrestFree : ∀ other ∈ order, (cancelPending state first).registry.get? other = none := by
      intro other hother
      exact cancelPending_free (hfree other (List.mem_cons_of_mem _ hother))
        fun h => hfirst (h ▸ hother)
    have hshadows : ∀ other ∈ order, ∀ shadowAlias,
        Shadows (cancelPending state first) other shadowAlias texture ↔
          Shadows state other shadowAlias texture :=
      fun other hother shadowAlias => shadows_cancelPending fun h => hfirst (h ▸ hother)
    rw [List.foldl_cons]
    rcases List.mem_cons.mp hmem with rfl | hrest
    · have hrestored := cancelPending_restores (hfree identifier List.mem_cons_self) h
      obtain ⟨⟨other, hother, hfrom⟩, hstill⟩ := foldl_cancelPending_tracks hnodup hrestFree
        hrestored hfirst
      refine ⟨?_, fun hnone => hstill fun found hfound hshadow => ?_⟩
      · rcases hfrom with rfl | ⟨hother', found, hshadow⟩
        · exact ⟨other, List.mem_cons_self, hother, shadowAlias, h⟩
        · exact ⟨other, List.mem_cons_of_mem _ hother', hother, found,
            (hshadows other hother' found).mp hshadow⟩
      · exact hnone found (List.mem_cons_of_mem _ hfound)
          ((hshadows found hfound identifier).mp hshadow)
    · obtain ⟨⟨other, hother, hfound, found, hshadow⟩, hstill⟩ := ih hnodup hrestFree hrest
        ((hshadows identifier hrest shadowAlias).mpr h)
      refine ⟨⟨other, List.mem_cons_of_mem _ hother, hfound, found,
        (hshadows other hother found).mp hshadow⟩, fun hnone => hstill fun found hfound hshadow => ?_⟩
      exact hnone found (List.mem_cons_of_mem _ hfound)
        ((hshadows found hfound identifier).mp hshadow)

end Restored

end Nexus.Textures
