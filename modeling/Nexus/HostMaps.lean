import Nexus.HostMoves

namespace Nexus

def LifecycleState.Live : LifecycleState → Prop
  | .discovered | .loaded | .unloadRequested | .draining => True
  | .unloaded | .failed => False

instance (state : LifecycleState) : Decidable state.Live := by
  cases state <;> unfold LifecycleState.Live <;> infer_instance

structure HostMaps (host : AddonHost) : Prop where
  keyed : ∀ owner r, host.records owner = some r → r.owner = owner
  active_iff : ∀ signature owner, host.activeBySignature signature = some owner ↔
    owner.signature = signature ∧ ∃ r, host.records owner = some r ∧ r.state.Live
  known : ∀ owner r, host.records owner = some r →
    owner.generation ≤ (host.lastGeneration owner.signature).getD 0
  cursor_le : ∀ owner r, host.records owner = some r →
    r.cleanupCursor ≤ CleanupPhase.order.length

theorem hostMaps_new (populated : Bool) : HostMaps (AddonHost.new populated) where
  keyed _ _ h := by cases h
  active_iff signature owner := by simp [AddonHost.new]
  known _ _ h := by cases h
  cursor_le _ _ h := by cases h

theorem checkedAdd_eq_some {a b c : Nat} (h : checkedAdd a b = some c) : c = a + b := by
  unfold checkedAdd at h
  split at h
  · exact (Option.some.inj h).symm
  · cases h

namespace HostMaps

variable {w : HostWorld} {owner : OwnerToken} {r : AddonRecord}

theorem active_of_live (hm : HostMaps w.host) (h : w.host.records owner = some r)
    (hl : r.state.Live) : w.host.activeBySignature owner.signature = some owner :=
  (hm.active_iff _ _).mpr ⟨rfl, r, h, hl⟩

theorem fresh (hm : HostMaps w.host)
    (hg : checkedAdd ((w.host.lastGeneration owner.signature).getD 0) 1 = some owner.generation) :
    w.host.records owner = none := by
  rcases hr : w.host.records owner with _ | r
  · rfl
  · have hle := hm.known owner r hr
    have hlt := checkedAdd_eq_some hg
    omega

theorem admitted {definition : OwnedAddonDefinition} {mode : LoadMode} (hm : HostMaps w.host)
    (ha : w.host.activeBySignature owner.signature = none)
    (hg : checkedAdd ((w.host.lastGeneration owner.signature).getD 0) 1 = some owner.generation) :
    HostMaps (w.admitted owner definition mode).host where
  keyed o r h := by
    rcases eq_or_ne o owner with rfl | hne
    · simp only [HostWorld.admitted, Function.update_self, Option.some.injEq] at h
      rw [← h]
    · simp only [HostWorld.admitted, Function.update_of_ne hne] at h
      exact hm.keyed o r h
  active_iff signature o := by
    simp only [HostWorld.admitted]
    rcases eq_or_ne o owner with rfl | hne
    · simp only [Function.update_self, Option.some.injEq, exists_eq_left', LifecycleState.Live,
        and_true]
      constructor
      · intro h
        by_contra hs
        rw [Function.update_of_ne (Ne.symm hs)] at h
        exact hs ((hm.active_iff _ _).mp h).1
      · rintro rfl
        exact Function.update_self ..
    · rw [Function.update_of_ne hne, ← hm.active_iff]
      rcases eq_or_ne signature owner.signature with rfl | hs
      · simp [Ne.symm hne, ha]
      · rw [Function.update_of_ne hs]
  known o r h := by
    have hlt := checkedAdd_eq_some hg
    simp only [HostWorld.admitted] at h ⊢
    rcases eq_or_ne o owner with rfl | hne
    · simp
    · rw [Function.update_of_ne hne] at h
      have hle := hm.known o r h
      rcases eq_or_ne o.signature owner.signature with hs | hs
      · simp only [hs, Function.update_self, Option.getD_some]
        rw [hs] at hle
        omega
      · rwa [Function.update_of_ne hs]
  cursor_le o r h := by
    rcases eq_or_ne o owner with rfl | hne
    · simp only [HostWorld.admitted, Function.update_self, Option.some.injEq] at h
      rw [← h]
      exact Nat.zero_le _
    · simp only [HostWorld.admitted, Function.update_of_ne hne] at h
      exact hm.cursor_le o r h

theorem setLive {r' : AddonRecord} (hm : HostMaps w.host) (h : w.host.records owner = some r)
    (hl : r.state.Live) (ho : r'.owner = r.owner) (hl' : r'.state.Live)
    (hle : r'.cleanupCursor ≤ CleanupPhase.order.length) :
    HostMaps (w.setRecord owner (some r')).host where
  keyed o r h' := by
    simp only [AddonHost.setRecord_records] at h'
    rcases eq_or_ne o owner with rfl | hne
    · rw [Function.update_self, Option.some.injEq] at h'
      rw [← h', ho, hm.keyed _ _ h]
    · rw [Function.update_of_ne hne] at h'
      exact hm.keyed o r h'
  active_iff signature o := by
    have hiff := hm.active_iff signature o
    simp only [HostWorld.setRecord]
    rw [hiff]
    rcases eq_or_ne o owner with rfl | hne
    · simp [h, hl, hl']
    · rw [Function.update_of_ne hne]
  known o r h' := by
    simp only [HostWorld.setRecord] at h' ⊢
    rcases eq_or_ne o owner with rfl | hne
    · exact hm.known _ _ h
    · rw [Function.update_of_ne hne] at h'
      exact hm.known o r h'
  cursor_le o r h' := by
    simp only [AddonHost.setRecord_records] at h'
    rcases eq_or_ne o owner with rfl | hne
    · rw [Function.update_self, Option.some.injEq] at h'
      rw [← h']
      exact hle
    · rw [Function.update_of_ne hne] at h'
      exact hm.cursor_le o r h'

theorem retire {r' : Option AddonRecord} (hm : HostMaps w.host)
    (h : w.host.records owner = some r) (hl : r.state.Live)
    (ho : ∀ s ∈ r', s.owner = r.owner ∧ s.cleanupCursor = r.cleanupCursor ∧ ¬s.state.Live) :
    HostMaps ((w.setRecord owner r').dropActive owner).host := by
  have hactive := hm.active_of_live h hl
  have hdrop : ((w.setRecord owner r').dropActive owner).host =
      { w.host with
        records := Function.update w.host.records owner r'
        activeBySignature := Function.update w.host.activeBySignature owner.signature none } := by
    have hsame : (w.setRecord owner r').host.activeBySignature owner.signature = some owner :=
      hactive
    unfold HostWorld.dropActive
    rw [if_pos hsame]
    rfl
  rw [hdrop]
  refine ⟨fun o s hs => ?_, fun signature o => ?_, fun o s hs => ?_, fun o s hs => ?_⟩
  · rcases eq_or_ne o owner with rfl | hne
    · simp only [Function.update_self] at hs
      rw [(ho s hs).1, hm.keyed _ _ h]
    · simp only [Function.update_of_ne hne] at hs
      exact hm.keyed o s hs
  · simp only
    rcases eq_or_ne o owner with rfl | hne
    · have hno : ¬∃ s, r' = some s ∧ s.state.Live := fun ⟨s, hs, hlive⟩ => (ho s hs).2.2 hlive
      rw [Function.update_self]
      simp only [hno, and_false, iff_false]
      intro hsome
      rcases eq_or_ne signature o.signature with rfl | hs
      · simp at hsome
      · rw [Function.update_of_ne hs] at hsome
        exact hs ((hm.active_iff _ _).mp hsome).1.symm
    · rw [Function.update_of_ne hne, ← hm.active_iff]
      rcases eq_or_ne signature owner.signature with rfl | hs
      · simp [hactive, Ne.symm hne]
      · rw [Function.update_of_ne hs]
  · rcases eq_or_ne o owner with rfl | hne
    · exact hm.known _ _ h
    · simp only [Function.update_of_ne hne] at hs
      exact hm.known o s hs
  · rcases eq_or_ne o owner with rfl | hne
    · simp only [Function.update_self] at hs
      rw [(ho s hs).2.1]
      exact hm.cursor_le _ _ h
    · simp only [Function.update_of_ne hne] at hs
      exact hm.cursor_le o s hs

end HostMaps

theorem DrainMove.maps {owner : OwnerToken} {w w' : HostWorld} (h : DrainMove owner w w')
    (hm : HostMaps w.host) : HostMaps w'.host := by
  cases h with
  | drain hr hs =>
    have hle := hm.cursor_le owner _ hr
    exact hm.setLive hr (by rcases hs with hs | hs <;> simp [hs, LifecycleState.Live]) rfl trivial
      hle
  | attempt | wait => exact hm
  | @clean r _ hr hs hp =>
    have hl : r.state.Live := by simp [hs, LifecycleState.Live]
    exact HostMaps.setLive (w := w.withShared _) hm hr hl rfl hl
      (List.getElem?_eq_some_iff.mp hp).1

theorem HostAdvance.maps {owner : OwnerToken} {w w' : HostWorld} (h : HostAdvance owner w w')
    (hm : HostMaps w.host) : HostMaps w'.host := by
  have hle := hm.cursor_le owner
  cases h with
  | load hr hs =>
    have hl := hle _ hr
    exact hm.setLive hr (by simp [hs, LifecycleState.Live]) rfl trivial hl
  | request hr hs =>
    have hl := hle _ hr
    exact HostMaps.setLive (w := w.withShared _) hm hr (by simp [hs, LifecycleState.Live]) rfl
      trivial hl
  | fail hr hs =>
    refine HostMaps.retire (w := w.withShared _) hm hr (by simp [hs, LifecycleState.Live]) ?_
    rintro s ⟨⟩
    exact ⟨rfl, rfl, id⟩
  | draining hdrain => exact hdrain.maps hm

theorem HostMove.maps {owner : OwnerToken} {w w' : HostWorld} (h : HostMove owner w w')
    (hm : HostMaps w.host) : HostMaps w'.host := by
  cases h with
  | admitted _ ha hg => exact hm.admitted ha hg
  | advance hadvance => exact hadvance.maps hm
  | release hr hs =>
    refine hm.retire hr (by simp [hs, LifecycleState.Live]) ?_
    rintro s ⟨⟩
    exact ⟨rfl, rfl, id⟩
  | cancel hr hs =>
    have hcomm : ∀ v : HostWorld, (v.dropActive owner).setRecord owner none =
        (v.setRecord owner none).dropActive owner := by
      intro v
      unfold HostWorld.dropActive HostWorld.setRecord
      split <;> simp_all
    rw [hcomm]
    exact HostMaps.retire (w := w.withShared _) hm hr (by simp [hs, LifecycleState.Live])
      (fun s hs => by cases hs)

theorem HostMoves.maps {owner : OwnerToken} {w w' : HostWorld} (h : HostMoves owner w w')
    (hm : HostMaps w.host) : HostMaps w'.host := by
  induction h with
  | refl => exact hm
  | tail _ hmove ih => exact hmove.maps ih

theorem HostAdvances.moves {owner : OwnerToken} {w w' : HostWorld} (h : HostAdvances owner w w') :
    HostMoves owner w w' :=
  Relation.ReflTransGen.mono (fun _ _ => HostMove.advance) _ _ h

section Operations

variable {w : HostWorld} {owner : OwnerToken}

theorem acknowledgeLoaded_advances :
    HostAdvances owner w (AddonHost.acknowledgeLoaded owner w).2 := by
  by_cases h : ∃ r, w.host.records owner = some r ∧ r.state = .discovered
  · obtain ⟨r, hr, hs⟩ := h
    rw [AddonHost.acknowledgeLoaded_ok _ hr hs]
    exact .single (.load hr hs)
  · obtain ⟨_, he⟩ := AddonHost.acknowledgeLoaded_error owner (w := w)
      fun r hr hs => h ⟨r, hr, hs⟩
    rw [he]

theorem requestUnload_advances {reason : UnloadReason} :
    HostAdvances owner w (AddonHost.requestUnload owner reason w).2 := by
  by_cases h : ∃ r, w.host.records owner = some r ∧ r.state = .loaded ∧
      ¬(reason = .runtime ∧ r.definition.flags.contains .disableHotLoading = true)
  · obtain ⟨r, hr, hs, hf⟩ := h
    rw [AddonHost.requestUnload_ok hr hs hf]
    exact .single (.request hr hs)
  · obtain ⟨_, he⟩ := AddonHost.requestUnload_error owner reason (w := w)
      fun r hr hs => not_not.mp fun hf => h ⟨r, hr, hs, hf⟩
    rw [he]

variable (owner) in
theorem drainRegistrations_advances (cleaner : Cleaner) (leaving : Nat) (hm : HostMaps w.host) :
    HostAdvances owner w (AddonHost.drainRegistrations cleaner leaving owner w).2 := by
  by_cases h : ∃ r, w.host.records owner = some r ∧
      (r.state = .unloadRequested ∨ r.state = .draining)
  · obtain ⟨r, hr, hs⟩ := h
    exact Relation.ReflTransGen.mono (fun _ _ => HostAdvance.draining) _ _
      (AddonHost.drainRegistrations_moves _ _ hr hs (hm.cursor_le _ _ hr)).1
  · obtain ⟨_, he⟩ := AddonHost.drainRegistrations_error owner cleaner leaving (w := w)
      fun r hr => ⟨fun hs => h ⟨r, hr, Or.inl hs⟩, fun hs => h ⟨r, hr, Or.inr hs⟩⟩
    rw [he]

theorem acknowledgeModuleReleased_moves :
    HostMoves owner w (AddonHost.acknowledgeModuleReleased owner w).2 := by
  by_cases h : ∃ r, w.host.records owner = some r ∧ r.state = .draining ∧
      r.cleanupCursor = CleanupPhase.order.length ∧ (w.gates (.host owner)).inFlight = 0
  · obtain ⟨r, hr, hs, hc, hg⟩ := h
    rw [AddonHost.acknowledgeModuleReleased_ok hr hs hc hg]
    exact .single (.release hr hs hc hg)
  · obtain ⟨_, he⟩ := AddonHost.acknowledgeModuleReleased_error owner (w := w)
      fun r hr hs hc hg => h ⟨r, hr, hs, hc, hg⟩
    rw [he]

theorem acknowledgeActivationFailed_advances :
    HostAdvances owner w (AddonHost.acknowledgeActivationFailed owner w).2 := by
  by_cases h : ∃ r, w.host.records owner = some r ∧ r.state = .discovered
  · obtain ⟨r, hr, hs⟩ := h
    rw [AddonHost.acknowledgeActivationFailed_ok hr hs]
    exact .single (.fail hr hs)
  · obtain ⟨_, he⟩ := AddonHost.acknowledgeActivationFailed_error owner (w := w)
      fun r hr hs => h ⟨r, hr, hs⟩
    rw [he]

theorem cancelDiscovery_moves : HostMoves owner w (AddonHost.cancelDiscovery owner w).2 := by
  by_cases h : ∃ r, w.host.records owner = some r ∧ r.state = .discovered
  · obtain ⟨r, hr, hs⟩ := h
    rw [AddonHost.cancelDiscovery_ok hr hs]
    exact .single (.cancel hr hs)
  · obtain ⟨_, he⟩ := AddonHost.cancelDiscovery_error owner (w := w)
      fun r hr hs => h ⟨r, hr, hs⟩
    rw [he]

end Operations

end Nexus
