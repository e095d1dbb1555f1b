import Nexus.HostMaps

namespace Nexus

def cleanedBy (owner : OwnerToken) : List Event → List CleanupPhase
  | [] => []
  | .cleaned o phase (.returned (.ok ())) :: log =>
    if o = owner then cleanedBy owner log ++ [phase] else cleanedBy owner log
  | _ :: log => cleanedBy owner log

/-- An attempt at the owned resources comes when the gate of the host is closed and empty. -/
def DrainedBefore (event : Event) (earlier : List Event) : Prop :=
  ∀ owner outcome, event = .cleaned owner .ownedResources outcome →
    (gatesAfter earlier (.host owner)).Quiet

/-- How far the cleanup of a generation is, given whether its gate still admits and what the
cleaner completed for it. -/
def CleaningStage (record : Option AddonRecord) (accepting : Bool) (cleaned : List CleanupPhase) :
    Prop :=
  match record with
  | none => cleaned = []
  | some r => cleaned = CleanupPhase.order.take r.cleanupCursor ∧
    match r.state with
    | .discovered | .loaded => r.cleanupCursor = 0
    | .unloadRequested | .failed => r.cleanupCursor = 0 ∧ accepting = false
    | .draining | .unloaded => accepting = false

structure HostCleaning (w : HostWorld) : Prop where
  traced : w.Traced
  stage : ∀ owner, CleaningStage (w.host.records owner) (w.gates (.host owner)).accepting
    (cleanedBy owner w.log)
  drained : EachEvent DrainedBefore w.log

variable {owner : OwnerToken}

theorem hostRef_ne {other : OwnerToken} (h : other ≠ owner) :
    GateRef.host other ≠ .host owner := fun he => h (GateRef.host.inj he)

theorem HostMove.frame {owner : OwnerToken} {w w' : HostWorld} (other : OwnerToken)
    (h : HostMove owner w w')
    (hne : other ≠ owner) :
    w'.host.records other = w.host.records other ∧
      w'.gates (.host other) = w.gates (.host other) ∧
      cleanedBy other w'.log = cleanedBy other w.log := by
  have hclean : ∀ phase outcome, cleanedBy other (.cleaned owner phase outcome :: w.log) =
      cleanedBy other w.log := by
    intro phase outcome
    rcases outcome with (_ | ⟨⟨⟩⟩) | _ <;> simp [cleanedBy, Ne.symm hne]
  have hset : ∀ r, (w.setRecord owner r).host.records other = w.host.records other :=
    fun r => Function.update_of_ne hne ..
  have hgate : ∀ gate event, (w.setGate (.host owner) gate event).gates (.host other) =
      w.gates (.host other) := fun gate event => w.setGate_of_ne (hostRef_ne hne) gate event
  cases h with
  | admitted => exact ⟨Function.update_of_ne hne .., hgate _ _, rfl⟩
  | advance hadvance =>
    cases hadvance with
    | load => exact ⟨hset _, rfl, rfl⟩
    | request => exact ⟨hset _, hgate _ _, rfl⟩
    | fail =>
      rw [AddonHost.dropActive_records, AddonHost.dropActive_toShared]
      exact ⟨hset _, hgate _ _, rfl⟩
    | draining hdrain =>
      cases hdrain with
      | drain => exact ⟨hset _, rfl, rfl⟩
      | attempt => exact ⟨rfl, rfl, hclean _ _⟩
      | clean => exact ⟨hset _, rfl, hclean _ _⟩
      | @wait leaving =>
        rcases w.waitForDrain_cases (.host owner) leaving with hw | hw <;>
          simp only [HostWorld.withShared, hw]
        · exact ⟨trivial, trivial, trivial⟩
        · exact ⟨trivial, hgate _ _, rfl⟩
  | release =>
    rw [AddonHost.dropActive_records, AddonHost.dropActive_toShared]
    exact ⟨hset _, rfl, rfl⟩
  | cancel =>
    simp only [AddonHost.setRecord_toShared, AddonHost.dropActive_toShared]
    refine ⟨?_, hgate _ _, rfl⟩
    rw [AddonHost.setRecord_records, Function.update_of_ne hne, AddonHost.dropActive_records]
    rfl

variable {w w' : HostWorld}

theorem HostCleaning.of_frame (hc : HostCleaning w) (traced : w'.Traced)
    (frame : ∀ other, other ≠ owner → w'.host.records other = w.host.records other ∧
      w'.gates (.host other) = w.gates (.host other) ∧
      cleanedBy other w'.log = cleanedBy other w.log)
    (stage : CleaningStage (w'.host.records owner) (w'.gates (.host owner)).accepting
      (cleanedBy owner w'.log)) (drained : EachEvent DrainedBefore w'.log) : HostCleaning w' where
  traced := traced
  stage other := by
    rcases eq_or_ne other owner with rfl | hne
    · exact stage
    · obtain ⟨hr, hg, hl⟩ := frame other hne
      rw [hr, hg, hl]
      exact hc.stage other
  drained := drained

theorem ownedResources_index {cursor : Nat}
    (h : CleanupPhase.order[cursor]? = some .ownedResources) :
    CleanupPhase.preDrainCount ≤ cursor := by
  match cursor, h with
  | _ + 2, _ => exact Nat.le_add_left 2 _

theorem cleanedBy_failed {phase : CleanupPhase} {outcome : Call (Except CleanupError Unit)}
    (h : outcome ≠ .returned (.ok ())) (log : List Event) :
    cleanedBy owner (.cleaned owner phase outcome :: log) =
      cleanedBy owner log := by
  rcases outcome with (_ | ⟨⟨⟩⟩) | _
  · rfl
  · exact absurd rfl h
  · rfl

theorem HostCleaning.attempted {r : AddonRecord} {phase : CleanupPhase} (hc : HostCleaning w)
    (hr : w.host.records owner = some r) (hs : r.state = .draining)
    (hp : CleanupPhase.order[r.cleanupCursor]? = some phase)
    (hg : CleanupPhase.preDrainCount ≤ r.cleanupCursor → (w.gates (.host owner)).inFlight = 0)
    (outcome : Call (Except CleanupError Unit)) :
    EachEvent DrainedBefore (.cleaned owner phase outcome :: w.log) := by
  refine ⟨fun o out he => ?_, hc.drained⟩
  obtain ⟨rfl, rfl, rfl⟩ := Event.cleaned.inj he
  have hstage := hc.stage owner
  simp only [CleaningStage, hr, hs] at hstage
  have htraced : w.gates = gatesAfter w.log := hc.traced
  rw [← htraced]
  exact ⟨hstage.2, hg (ownedResources_index hp)⟩

theorem DrainMove.cleaning (h : DrainMove owner w w') (hc : HostCleaning w) : HostCleaning w' := by
  have hframe := fun other => HostMove.frame other (.advance (.draining h))
  have hstage := hc.stage owner
  cases h with
  | drain hr hs =>
    refine hc.of_frame hc.traced hframe ?_ hc.drained
    rw [hr] at hstage
    rcases hs with hs | hs
    · simp only [CleaningStage, hs] at hstage
      simpa [CleaningStage] using ⟨hstage.1, hstage.2.2⟩
    · simpa [CleaningStage, hs] using hstage
  | attempt hr hs hp hg ho =>
    refine hc.of_frame (hc.traced.record rfl) hframe ?_ (hc.attempted hr hs hp hg _)
    simpa [CleaningStage, hr, hs, cleanedBy_failed ho] using hstage
  | clean hr hs hp hg =>
    refine hc.of_frame (hc.traced.record rfl) hframe ?_ (hc.attempted hr hs hp hg _)
    simp only [CleaningStage, hr, hs] at hstage
    simp [CleaningStage, hs, cleanedBy, hstage, List.take_add_one, hp]
  | @wait leaving =>
    refine hc.of_frame hc.traced.waitForDrain hframe ?_ ?_ <;>
      simp only [AddonHost.withShared_toShared, AddonHost.withShared_host] <;>
      rcases w.waitForDrain_cases (.host owner) leaving with hw | hw <;> rw [hw]
    · exact hstage
    · simpa [Shared.leaveGate, cleanedBy] using hstage
    · exact hc.drained
    · exact ⟨by simp [DrainedBefore], hc.drained⟩

theorem HostAdvance.cleaning (h : HostAdvance owner w w') (hc : HostCleaning w) :
    HostCleaning w' := by
  have hframe := fun other => HostMove.frame other (.advance h)
  have hstage := hc.stage owner
  cases h with
  | load hr hs =>
    refine hc.of_frame hc.traced hframe ?_ hc.drained
    simpa [CleaningStage, hr, hs] using hstage
  | request hr hs =>
    refine hc.of_frame hc.traced.closeGate hframe ?_
      ⟨by simp [DrainedBefore], hc.drained⟩
    simpa [CleaningStage, hr, hs, Shared.closeGate, cleanedBy] using hstage
  | fail hr hs =>
    refine hc.of_frame ?_ hframe ?_ ?_ <;> simp only [AddonHost.dropActive_toShared]
    · exact hc.traced.closeGate
    · simpa [CleaningStage, hr, hs, Shared.closeGate, cleanedBy] using hstage
    · exact ⟨by simp [DrainedBefore], hc.drained⟩
  | draining hdrain => exact hdrain.cleaning hc

theorem HostMove.cleaning (h : HostMove owner w w') (hm : HostMaps w.host) (hc : HostCleaning w) :
    HostCleaning w' := by
  have hframe := fun other => HostMove.frame other h
  have hstage := hc.stage owner
  cases h with
  | admitted _ _ hg =>
    refine hc.of_frame hc.traced.openGate hframe ?_ ⟨by simp [DrainedBefore], hc.drained⟩
    rw [hm.fresh hg] at hstage
    simpa [CleaningStage, HostWorld.admitted, Shared.openGate, cleanedBy] using hstage
  | advance hadvance => exact hadvance.cleaning hc
  | release hr hs =>
    refine hc.of_frame ?_ hframe ?_ ?_ <;> simp only [AddonHost.dropActive_toShared]
    · exact hc.traced
    · simpa [CleaningStage, hr, hs] using hstage
    · exact hc.drained
  | cancel hr hs =>
    refine hc.of_frame ?_ hframe ?_ ?_ <;>
      simp only [AddonHost.setRecord_toShared, AddonHost.dropActive_toShared]
    · exact hc.traced.closeGate
    · simp only [CleaningStage, hr, hs] at hstage
      simp [CleaningStage, Shared.closeGate, cleanedBy, hstage]
    · exact ⟨by simp [DrainedBefore], hc.drained⟩

theorem HostMoves.cleaning (h : HostMoves owner w w') (hm : HostMaps w.host) (hc : HostCleaning w) :
    HostCleaning w' := by
  induction h with
  | refl => exact hc
  | tail hmoves hmove ih => exact hmove.cleaning (HostMoves.maps hmoves hm) ih

theorem HostMove.lastGeneration_le (h : HostMove owner w w') (signature : Nat) :
    (w.host.lastGeneration signature).getD 0 ≤ (w'.host.lastGeneration signature).getD 0 := by
  have hdrop : ∀ v : HostWorld,
      (v.dropActive owner).host.lastGeneration = v.host.lastGeneration := by
    intro v
    unfold HostWorld.dropActive
    split <;> rfl
  cases h with
  | admitted _ _ hg =>
    have hlt := checkedAdd_eq_some hg
    rcases eq_or_ne signature owner.signature with rfl | hs
    · simp only [HostWorld.admitted, Function.update_self, Option.getD_some]
      omega
    · simp only [HostWorld.admitted, Function.update_of_ne hs, le_refl]
  | advance hadvance =>
    cases hadvance with
    | load | request => exact le_rfl
    | fail => rw [hdrop]; exact le_rfl
    | draining hdrain => cases hdrain <;> exact le_rfl
  | release => rw [hdrop]; exact le_rfl
  | cancel =>
    change _ ≤ ((HostWorld.dropActive _ owner).host.lastGeneration signature).getD 0
    rw [hdrop]
    exact le_rfl

theorem HostMoves.lastGeneration_le (h : HostMoves owner w w') (signature : Nat) :
    (w.host.lastGeneration signature).getD 0 ≤ (w'.host.lastGeneration signature).getD 0 := by
  induction h with
  | refl => exact le_rfl
  | tail _ hmove ih => exact ih.trans (hmove.lastGeneration_le signature)

inductive HostOp where
  | discover (access : Except ModuleAccessError DefinitionLease) (mode : LoadMode)
      (limits : MetadataLimits)
  | acknowledgeLoaded (owner : OwnerToken)
  | requestUnload (owner : OwnerToken) (reason : UnloadReason)
  | drainRegistrations (cleaner : Cleaner) (leaving : Nat) (owner : OwnerToken)
  | acknowledgeModuleReleased (owner : OwnerToken)
  | acknowledgeActivationFailed (owner : OwnerToken)
  | cancelDiscovery (owner : OwnerToken)
  | enter (gate : GateRef)
  | leave (gate : GateRef) (count : Nat)

structure HostRun where
  world : HostWorld
  issued : List OwnerToken

namespace HostRun

def start (populated : Bool) : HostRun := ⟨⟨Shared.start, AddonHost.new populated⟩, []⟩

def step (run : HostRun) : HostOp → HostRun
  | .discover access mode limits =>
    match AddonHost.discover access mode limits run.world with
    | (.ok owner, w) => ⟨w, owner :: run.issued⟩
    | (.error _, w) => ⟨w, run.issued⟩
  | .acknowledgeLoaded owner => ⟨(AddonHost.acknowledgeLoaded owner run.world).2, run.issued⟩
  | .requestUnload owner reason =>
    ⟨(AddonHost.requestUnload owner reason run.world).2, run.issued⟩
  | .drainRegistrations cleaner leaving owner =>
    ⟨(AddonHost.drainRegistrations cleaner leaving owner run.world).2, run.issued⟩
  | .acknowledgeModuleReleased owner =>
    ⟨(AddonHost.acknowledgeModuleReleased owner run.world).2, run.issued⟩
  | .acknowledgeActivationFailed owner =>
    ⟨(AddonHost.acknowledgeActivationFailed owner run.world).2, run.issued⟩
  | .cancelDiscovery owner => ⟨(AddonHost.cancelDiscovery owner run.world).2, run.issued⟩
  | .enter gate => ⟨run.world.withShared fun s => (s.enterGate gate).2, run.issued⟩
  | .leave gate count => ⟨run.world.withShared (·.leaveGate gate count), run.issued⟩

def after (populated : Bool) (ops : List HostOp) : HostRun := ops.foldl step (start populated)

/-- What holds between the calls: the maps agree, the cursors account for the cleaner's calls,
and every token was newer than the earlier ones of its signature. -/
structure Sound (run : HostRun) : Prop where
  maps : HostMaps run.world.host
  cleaning : HostCleaning run.world
  increasing : run.issued.Pairwise fun newer older =>
    newer.signature = older.signature → older.generation < newer.generation
  counted : ∀ owner ∈ run.issued,
    owner.generation ≤ (run.world.host.lastGeneration owner.signature).getD 0

theorem sound_start (populated : Bool) : (start populated).Sound where
  maps := hostMaps_new populated
  cleaning := ⟨rfl, fun _ => rfl, trivial⟩
  increasing := .nil
  counted _ h := by cases h

variable {run : HostRun}

theorem Sound.of_moves {owner : OwnerToken} {w : HostWorld} (h : run.Sound)
    (hw : HostMoves owner run.world w) : Sound ⟨w, run.issued⟩ where
  maps := HostMoves.maps hw h.maps
  cleaning := HostMoves.cleaning hw h.maps h.cleaning
  increasing := h.increasing
  counted o ho := (h.counted o ho).trans (HostMoves.lastGeneration_le hw _)

theorem Sound.of_gate {f : Shared → Shared} (h : run.Sound)
    (traced : (f run.world.toShared).Traced)
    (accepting : ∀ ref, ((f run.world.toShared).gates ref).accepting =
      (run.world.gates ref).accepting)
    (cleaned : ∀ owner, cleanedBy owner (f run.world.toShared).log =
      cleanedBy owner run.world.log)
    (drained : EachEvent DrainedBefore (f run.world.toShared).log) :
    Sound ⟨run.world.withShared f, run.issued⟩ where
  maps := h.maps
  cleaning := by
    refine ⟨traced, fun owner => ?_, drained⟩
    simp only [AddonHost.withShared_host, AddonHost.withShared_toShared, accepting, cleaned]
    exact h.cleaning.stage owner
  increasing := h.increasing
  counted := h.counted

theorem Sound.step (h : run.Sound) (op : HostOp) : (run.step op).Sound := by
  cases op with
  | discover access mode limits =>
    rcases AddonHost.discover_cases access mode limits run.world with
      ⟨e, he⟩ | ⟨owner, definition, _, hs, ha, hg, hok⟩
    · simp only [HostRun.step, he]
      exact h
    · have hmove : HostMove owner run.world (run.world.admitted owner definition mode) :=
        .admitted hs ha hg
      have hsound := h.of_moves (.single hmove)
      simp only [HostRun.step, hok]
      refine ⟨hsound.maps, hsound.cleaning, ?_, ?_⟩
      · refine List.pairwise_cons.mpr ⟨fun older ho hsame => ?_, h.increasing⟩
        have hle := h.counted older ho
        have hlt := checkedAdd_eq_some hg
        rw [← hsame] at hle
        omega
      · intro o ho
        rcases List.mem_cons.mp ho with rfl | ho
        · simp [HostWorld.admitted]
        · exact hsound.counted o ho
  | acknowledgeLoaded => exact h.of_moves acknowledgeLoaded_advances.moves
  | requestUnload => exact h.of_moves requestUnload_advances.moves
  | drainRegistrations => exact h.of_moves (drainRegistrations_advances _ _ _ h.maps).moves
  | acknowledgeModuleReleased => exact h.of_moves acknowledgeModuleReleased_moves
  | acknowledgeActivationFailed => exact h.of_moves acknowledgeActivationFailed_advances.moves
  | cancelDiscovery => exact h.of_moves cancelDiscovery_moves
  | enter gate =>
    have htraced : (run.world.enterGate gate).2.Traced := h.cleaning.traced.enterGate
    rcases run.world.enterGate_cases gate with he | ⟨_, he⟩
    · exact h.of_gate htraced (by rw [he]; simp) (by rw [he]; simp)
        (by rw [he]; exact h.cleaning.drained)
    · refine h.of_gate htraced (fun ref => ?_) (by rw [he]; simp [cleanedBy])
        (by rw [he]; exact ⟨by simp [DrainedBefore], h.cleaning.drained⟩)
      rw [he, Shared.setGate_gates, Function.update_apply]
      split
      next hr => rw [hr]
      next => rfl
  | leave =>
    refine h.of_gate h.cleaning.traced.leaveGate (fun ref => ?_)
      (by simp [Shared.leaveGate, cleanedBy])
      (⟨by simp [DrainedBefore], h.cleaning.drained⟩)
    rw [Shared.leaveGate, Shared.setGate_gates, Function.update_apply]
    split
    next hr => rw [hr]; rfl
    next => rfl

theorem sound_after (populated : Bool) (ops : List HostOp) : (after populated ops).Sound := by
  unfold after
  generalize hstart : start populated = run
  have hrun : run.Sound := hstart ▸ sound_start populated
  clear hstart
  induction ops generalizing run with
  | nil => exact hrun
  | cons op _ ih => exact ih _ (hrun.step op)

end HostRun

/-- The generation discipline of the host: tokens are never reissued, the active map names the
live generation of each signature, and per owner the cleaner completes a prefix of the order,
the owned resources only behind a closed and empty gate. -/
theorem host_generation_discipline (populated : Bool) (ops : List HostOp) :
    let run := HostRun.after populated ops
    (run.issued.Nodup ∧ run.issued.Pairwise fun newer older =>
      newer.signature = older.signature → older.generation < newer.generation) ∧
    (∀ signature owner, run.world.host.activeBySignature signature = some owner ↔
      owner.signature = signature ∧ ∃ r, run.world.host.records owner = some r ∧
        (r.state = .discovered ∨ r.state = .loaded ∨ r.state = .unloadRequested ∨
          r.state = .draining)) ∧
    (∀ a b r s, run.world.host.records a = some r → run.world.host.records b = some s →
      a.signature = b.signature → r.state.Live → s.state.Live → a = b) ∧
    (∀ owner, cleanedBy owner run.world.log <+: CleanupPhase.order ∧
      (cleanedBy owner run.world.log).Nodup) ∧
    run.world.gates = gatesAfter run.world.log ∧
    ∀ later earlier owner outcome,
      run.world.log = later ++ .cleaned owner .ownedResources outcome :: earlier →
        (gatesAfter earlier (.host owner)).accepting = false ∧
          (gatesAfter earlier (.host owner)).inFlight = 0 := by
  intro run
  have hsound : run.Sound := HostRun.sound_after populated ops
  have hactive := hsound.maps.active_iff
  have hordered : ∀ owner, cleanedBy owner run.world.log <+: CleanupPhase.order := by
    intro owner
    have hstage := hsound.cleaning.stage owner
    unfold CleaningStage at hstage
    split at hstage
    · rw [hstage]
      exact List.nil_prefix
    · rw [hstage.1]
      exact List.take_prefix ..
  refine ⟨⟨?_, hsound.increasing⟩, ?_, ?_, ?_, hsound.cleaning.traced, ?_⟩
  · refine hsound.increasing.imp fun hlt he => ?_
    exact absurd (hlt (by rw [he])) (by rw [he]; exact lt_irrefl _)
  · intro signature owner
    rw [hactive]
    refine and_congr_right fun _ => exists_congr fun r => and_congr_right fun _ => ?_
    rcases r.state <;> simp [LifecycleState.Live]
  · intro a b r s hr hs hsame hrl hsl
    have ha := (hactive b.signature a).mpr ⟨hsame, r, hr, hrl⟩
    have hb := (hactive b.signature b).mpr ⟨rfl, s, hs, hsl⟩
    exact Option.some.inj (ha.symm.trans hb)
  · exact fun owner => ⟨hordered owner, (hordered owner).sublist.nodup (by decide)⟩
  · exact fun later earlier owner outcome hlog =>
      eachEvent_iff.mp hsound.cleaning.drained later _ earlier hlog owner outcome rfl

end Nexus
