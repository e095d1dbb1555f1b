import Nexus.TextureConservation

namespace Nexus.Textures

open StepRuns

section Carries

variable (identifier : String) (requestId : Nat)

def counts (other : String) (otherId : Nat) : Nat :=
  if other = identifier ∧ otherId = requestId then 1 else 0

def Activation.carries : Activation → Nat
  | .resolving other otherId _ _ => counts identifier requestId other otherId
  | .unwound other otherId => counts identifier requestId other otherId
  | .queueing other otherId _ => counts identifier requestId other otherId
  | .failing other otherId _ _ _ => counts identifier requestId other otherId
  | .finishing other otherId _ _ => counts identifier requestId other otherId
  | .uploading other otherId _ _ => counts identifier requestId other otherId
  | .registering other otherId _ _ => counts identifier requestId other otherId
  | _ => 0

def DecodeJob.carries (job : DecodeJob) : Nat :=
  counts identifier requestId job.identifier job.requestId

def DownloadJob.carries (job : DownloadJob) : Nat :=
  counts identifier requestId job.identifier job.requestId

def Completion.carries : Completion → Nat
  | .decoded other otherId _ => counts identifier requestId other otherId
  | .callback .. => 0

def Worker.carries {Job : Type} (carried : Job → Nat) : Worker Job → Nat
  | .idle => 0
  | .running job => carried job
  | .pushing other otherId _ => counts identifier requestId other otherId

/-- The jobs and completions of the request in the queues and workers. -/
def queued (world : World) : Nat :=
  tally (DecodeJob.carries identifier requestId) world.work +
    tally (DownloadJob.carries identifier requestId) world.downloads +
    tally (Completion.carries identifier requestId) world.completions +
    world.decodeWorker.carries identifier requestId (DecodeJob.carries identifier requestId) +
    world.downloadWorker.carries identifier requestId (DownloadJob.carries identifier requestId)

def carriers (world : World) : Nat :=
  queued identifier requestId world + tally (Activation.carries identifier requestId) world.calls

end Carries

inductive Carried (before after : World) : Prop
  | kept : (∀ identifier requestId,
        carriers identifier requestId after = carriers identifier requestId before) →
      after.state.nextRequestId = before.state.nextRequestId →
      (∀ identifier found, after.state.pending.get? identifier = some found →
        ∃ pending, before.state.pending.get? identifier = some pending ∧
          found.requestId = pending.requestId) → Carried before after
  | opened (opening : String) : (∀ identifier requestId,
        carriers identifier requestId after = carriers identifier requestId before +
          counts identifier requestId opening before.state.nextRequestId) →
      after.state.nextRequestId = nextId before.state.nextRequestId →
      after.calls.length = before.calls.length + 1 →
      before.state.pending.get? opening = none →
      (∀ identifier found, after.state.pending.get? identifier = some found →
        identifier = opening ∧ found.requestId = before.state.nextRequestId ∨
          before.state.pending.get? identifier = some found) → Carried before after
  | left (leaving : String) (leavingId : Nat) : (∀ identifier requestId,
        carriers identifier requestId after + counts identifier requestId leaving leavingId =
          carriers identifier requestId before) →
      after.state.nextRequestId = before.state.nextRequestId →
      (∀ identifier found, after.state.pending.get? identifier = some found →
        before.state.pending.get? identifier = some found ∧
          ¬ (leaving = identifier ∧ leavingId = found.requestId)) → Carried before after

variable {world next middle : World} {call requestId : Nat} {identifier : String}

theorem carriers_begin (hcalls : middle.calls = world.calls)
    (hqueued : queued identifier requestId middle = queued identifier requestId world)
    (activation : Activation) :
    carriers identifier requestId (middle.begin activation) =
      carriers identifier requestId world + activation.carries identifier requestId := by
  have hbegin : (middle.begin activation).calls = world.calls ++ [activation] := by
    rw [← hcalls]
    rfl
  have hsame : queued identifier requestId (middle.begin activation) =
      queued identifier requestId middle := rfl
  unfold carriers
  rw [hbegin, hsame, hqueued, tally_append, tally_cons, tally_nil]
  omega

variable (identifier requestId) in
theorem carriers_goOn {before : Activation} (hcall : world.calls[call]? = some before)
    (hcalls : middle.calls = world.calls) (after : Activation) :
    carriers identifier requestId (middle.goOn call after) +
        before.carries identifier requestId + queued identifier requestId world =
      carriers identifier requestId world + after.carries identifier requestId +
        queued identifier requestId middle := by
  have hgoOn : (middle.goOn call after).calls = world.calls.set call after := by
    rw [← hcalls]
    rfl
  have hsame : queued identifier requestId (middle.goOn call after) =
      queued identifier requestId middle := rfl
  have hset := tally_set (Activation.carries identifier requestId) hcall after
  unfold carriers
  rw [hgoOn, hsame]
  omega

theorem Turn.carries {before after : Activation} (h : Turn before after) :
    after.carries identifier requestId = before.carries identifier requestId := by
  cases h with
  | @dispatched _ continuation => cases continuation <;> rfl
  | _ => rfl

theorem Drops.carries {state : RegistryState} {before after : Activation}
    (h : Drops state before after) :
    ∃ leaving leavingId, takePending leaving leavingId state = none ∧
      ∀ identifier requestId, after.carries identifier requestId = 0 ∧
        before.carries identifier requestId =
          counts identifier requestId leaving leavingId := by
  cases h with
  | unmatched htake | superseded htake | gone htake => exact ⟨_, _, htake, fun _ _ => ⟨rfl, rfl⟩⟩

theorem carried_begin (hcalls : middle.calls = world.calls)
    (hqueued : ∀ identifier requestId,
      queued identifier requestId middle = queued identifier requestId world)
    {activation : Activation}
    (hcarries : ∀ identifier requestId, activation.carries identifier requestId = 0)
    (hid : middle.state.nextRequestId = world.state.nextRequestId)
    (hpending : ∀ identifier found, middle.state.pending.get? identifier = some found →
      ∃ pending, world.state.pending.get? identifier = some pending ∧
        found.requestId = pending.requestId) : Carried world (middle.begin activation) := by
  refine .kept (fun identifier requestId => ?_) hid hpending
  rw [carriers_begin hcalls (hqueued identifier requestId), hcarries, Nat.add_zero]

theorem carried_goOn {before after : Activation} (hcall : world.calls[call]? = some before)
    (hcalls : middle.calls = world.calls) (hstate : middle.state = world.state)
    (hcarries : ∀ identifier requestId,
      after.carries identifier requestId + queued identifier requestId middle =
        before.carries identifier requestId + queued identifier requestId world) :
    Carried world (middle.goOn call after) := by
  refine .kept (fun identifier requestId => ?_) (congrArg RegistryState.nextRequestId hstate)
    fun identifier found hfound => ⟨found, ?_, rfl⟩
  · have hgoOn := carriers_goOn requestId identifier hcall hcalls after
    have hsum := hcarries identifier requestId
    omega
  · rw [goOn_state, hstate] at hfound
    exact hfound

theorem carried_same (hstate : next.state = world.state)
    (hcarriers : ∀ identifier requestId,
      carriers identifier requestId next = carriers identifier requestId world) :
    Carried world next := by
  refine .kept hcarriers (congrArg RegistryState.nextRequestId hstate)
    fun identifier found hfound => ⟨found, ?_, rfl⟩
  rw [← hstate]
  exact hfound

theorem takePending_ne {state : RegistryState} {leaving : String} {leavingId : Nat}
    (h : takePending leaving leavingId state = none) {found : PendingRequest}
    (hget : state.pending.get? identifier = some found) :
    ¬ (leaving = identifier ∧ leavingId = found.requestId) := by
  rintro ⟨rfl, rfl⟩
  rw [takePending_eq hget rfl] at h
  cases h

theorem carried_taken {before after : Activation} {leaving : String} {leavingId : Nat}
    (hcall : world.calls[call]? = some before) (hcalls : middle.calls = world.calls)
    (hqueued : ∀ identifier requestId,
      queued identifier requestId middle = queued identifier requestId world)
    (hbefore : ∀ identifier requestId, before.carries identifier requestId =
      counts identifier requestId leaving leavingId)
    (hafter : ∀ identifier requestId, after.carries identifier requestId = 0)
    (hid : middle.state.nextRequestId = world.state.nextRequestId)
    (hpending : middle.state.pending = world.state.pending.erase leaving) :
    Carried world (middle.goOn call after) := by
  refine .left leaving leavingId (fun identifier requestId => ?_) hid fun identifier found hfound => ?_
  · have hgoOn := carriers_goOn requestId identifier hcall hcalls after
    rw [hbefore, hafter, hqueued] at hgoOn
    omega
  · rw [goOn_state, hpending, SortedMap.get?_erase] at hfound
    split at hfound
    · cases hfound
    next hne => exact ⟨hfound, fun h => hne h.1.symm⟩

theorem cleanupPending_ids (target : RequestOwner) (order : List String) (state : RegistryState) :
    (cleanupPending target order state).nextRequestId = state.nextRequestId ∧
      (cleanupPending target order state).nextCallbackId = state.nextCallbackId := by
  unfold cleanupPending
  refine List.foldlRecOn (motive := fun after => after.nextRequestId = state.nextRequestId ∧
    after.nextCallbackId = state.nextCallbackId) order cancelPending
      (show (forgetOwner target state).nextRequestId = _ ∧ _ from ⟨rfl, rfl⟩)
      fun after hafter identifier _ => ?_
  unfold cancelPending
  split <;> exact hafter

theorem queued_work_snoc {job : DecodeJob} :
    queued identifier requestId { world with work := world.work ++ [job] } =
      queued identifier requestId world + job.carries identifier requestId := by
  unfold queued
  dsimp only
  rw [tally_append, tally_cons, tally_nil]
  omega

theorem queued_downloads_snoc {job : DownloadJob} :
    queued identifier requestId { world with downloads := world.downloads ++ [job] } =
      queued identifier requestId world + job.carries identifier requestId := by
  unfold queued
  dsimp only
  rw [tally_append, tally_cons, tally_nil]
  omega

theorem tally_completion_snoc (completions : List Completion) (completion : Completion) :
    tally (Completion.carries identifier requestId) (completions ++ [completion]) =
      tally (Completion.carries identifier requestId) completions +
        completion.carries identifier requestId := by
  rw [tally_append, tally_cons, tally_nil]
  rfl

theorem move_carried (h : Move world next) : Carried world next := by
  cases h with
  | @answered _ _ _ _ hnumbered | @hit _ _ _ identifier _ hnumbered =>
    refine carried_begin (by rfl) (fun _ _ => by rfl) (fun _ _ => by rfl)
      (by exact hnumbered.nextRequestId) fun identifier found hfound => ⟨found, ?_, rfl⟩
    rw [← hnumbered.pending]
    exact hfound
  | refused | advances =>
    exact carried_begin (by rfl) (fun _ _ => by rfl) (fun _ _ => by rfl) (by rfl)
      fun identifier found hfound => ⟨found, hfound, rfl⟩
  | @joined _ _ _ _ _ pending hnumbered _ hget =>
    refine carried_begin (by rfl) (fun _ _ => by rfl) (fun _ _ => by rfl)
      (by exact hnumbered.nextRequestId) fun other found hfound => ?_
    rw [record_state] at hfound
    dsimp only [joinRequest] at hfound
    rw [SortedMap.get?_put] at hfound
    split at hfound
    next hother =>
      cases hfound
      exact ⟨pending, by rw [hother, hget], rfl⟩
    next =>
      rw [hnumbered.pending] at hfound
      exact ⟨found, hfound, rfl⟩
  | @opened _ _ _ identifier _ _ _ hnumbered hget =>
    refine .opened identifier (fun other otherId => ?_) ?_ ?_ hget fun other found hfound => ?_
    · exact carriers_begin (by rfl) (by rfl) _
    · rw [begin_state, record_state]
      exact congrArg nextId hnumbered.nextRequestId
    · exact List.length_append
    · rw [begin_state, record_state] at hfound
      dsimp only [openRequest] at hfound
      rw [SortedMap.get?_put] at hfound
      split at hfound
      next hother =>
        cases hfound
        exact Or.inl ⟨hother, hnumbered.nextRequestId⟩
      next =>
        rw [hnumbered.pending] at hfound
        exact Or.inr hfound
  | @cleans _ _ hperm =>
    refine carried_begin (by rfl) (fun _ _ => by rfl) (fun _ _ => by rfl) ?_
      fun identifier found hfound => ?_
    · exact (cleanupPending_ids ..).1
    · rw [record_state, cleanupPending_get? hperm] at hfound
      obtain ⟨pending, hpending, hkept⟩ := Option.bind_eq_some_iff.mp hfound
      split at hkept
      · cases hkept
      · cases hkept
        exact ⟨pending, hpending, rfl⟩
  | turned hcall hturn =>
    exact carried_goOn hcall (by rfl) (by rfl) fun _ _ => by rw [hturn.carries]
  | @dropped _ _ after hcall hdrops =>
    obtain ⟨leaving, leavingId, htake, hcarries⟩ := hdrops.carries
    refine .left leaving leavingId (fun identifier requestId => ?_) rfl
      fun identifier found hfound => ⟨hfound, takePending_ne htake hfound⟩
    have hgoOn := carriers_goOn requestId identifier hcall (Eq.refl world.calls) after
    rw [(hcarries identifier requestId).1, (hcarries identifier requestId).2] at hgoOn
    omega
  | notified hcall =>
    refine carried_goOn hcall (by rfl) (by rfl) fun identifier requestId => ?_
    unfold queued
    rw [record_completions, tally_completion_snoc]
    rfl
  | queuedWork hcall hidentifier hid =>
    subst hidentifier hid
    refine carried_goOn hcall (by rfl) (by rfl) fun identifier requestId => ?_
    rw [queued_work_snoc]
    exact (Nat.zero_add _).trans (Nat.add_comm ..)
  | queuedDownload hcall hidentifier hid =>
    subst hidentifier hid
    refine carried_goOn hcall (by rfl) (by rfl) fun identifier requestId => ?_
    rw [queued_downloads_snoc]
    exact (Nat.zero_add _).trans (Nat.add_comm ..)
  | @popped _ _ left completion _ hcall hcompletions =>
    refine carried_goOn hcall (by rfl) (by rfl) fun identifier requestId => ?_
    have hcarries : (completion.activation left).carries identifier requestId =
        completion.carries identifier requestId := by
      cases completion <;> rfl
    unfold queued
    rw [hcarries, hcompletions, tally_cons]
    dsimp only [Activation.carries]
    omega
  | checked hcall | uploaded hcall | entered hcall =>
    exact carried_goOn hcall (by rfl) (by rfl) fun _ _ => rfl
  | failed hcall | finished hcall =>
    exact carried_taken hcall (by rfl) (fun _ _ => by rfl) (fun _ _ => by rfl) (fun _ _ => by rfl)
      (by rfl) (by rfl)
  | @swept _ _ owner hcall =>
    refine carried_goOn hcall (by rfl) (by rfl) fun identifier requestId => ?_
    unfold queued
    rw [record_completions, ← tally_filter (Completion.carries identifier requestId)
      (fun completion => completion.isOwned (.addon owner)) world.completions]
    have hzero : tally (Completion.carries identifier requestId)
        (world.completions.filter fun completion => completion.isOwned (.addon owner)) = 0 := by
      refine tally_eq_zero fun completion hmem => ?_
      cases completion with
      | decoded => cases (List.mem_filter.mp hmem).2
      | callback => rfl
    rw [hzero]
    dsimp only [record_work, record_downloads, record_decodeWorker, record_downloadWorker,
      Activation.carries]
    omega
  | decodeTaken hidle hwork =>
    refine carried_same rfl fun identifier requestId => ?_
    unfold carriers queued
    dsimp only
    rw [hidle, hwork, tally_cons]
    dsimp only [Worker.carries]
    omega
  | decodeRan hrunning | downloadRan hrunning =>
    refine carried_same rfl fun identifier requestId => ?_
    unfold carriers queued
    dsimp only
    rw [hrunning]
    rfl
  | decodePushed hpushing | downloadPushed hpushing =>
    refine carried_same rfl fun identifier requestId => ?_
    unfold carriers queued
    dsimp only
    rw [hpushing, tally_completion_snoc]
    dsimp only [Worker.carries, Completion.carries]
    omega
  | downloadTaken hidle hdownloads =>
    refine carried_same rfl fun identifier requestId => ?_
    unfold carriers queued
    dsimp only
    rw [hidle, hdownloads, tally_cons]
    dsimp only [Worker.carries]
    omega

/-- The ids in use, as long as no more than `2 ^ 64 - 2` calls were made and no id came back. -/
structure Requested (world : World) : Prop where
  requestIds : world.state.nextRequestId ≤ world.calls.length + 1
  carried : world.calls.length + 1 < 2 ^ 64 → ∀ identifier pending,
    world.state.pending.get? identifier = some pending →
      carriers identifier pending.requestId world = 1
  fresh : world.calls.length + 1 < 2 ^ 64 → ∀ identifier requestId,
    0 < carriers identifier requestId world → requestId < world.state.nextRequestId

theorem nextId_le (id : Nat) : nextId id ≤ id + 1 := by
  unfold nextId
  split
  · exact Nat.le_add_left ..
  · exact le_refl _

theorem nextId_eq {id : Nat} (h : id + 1 < 2 ^ 64) : nextId id = id + 1 := if_neg h.ne

theorem counts_self : counts identifier requestId identifier requestId = 1 := if_pos ⟨rfl, rfl⟩

theorem counts_of_ne {other : String} {otherId : Nat}
    (h : ¬ (other = identifier ∧ otherId = requestId)) :
    counts identifier requestId other otherId = 0 := if_neg h

theorem move_calls (h : Move world next) : world.calls.length ≤ next.calls.length := by
  cases h <;> simp [beginCleanup, sweep]

theorem Requested.move (h : Requested world) (hmove : Move world next) : Requested next := by
  have hcalls := move_calls hmove
  cases move_carried hmove with
  | kept hcarriers hid hpending =>
    refine ⟨?_, fun hbound identifier found hfound => ?_, fun hbound identifier requestId hpos => ?_⟩
    · have hids := h.requestIds
      omega
    · obtain ⟨pending, hget, hsame⟩ := hpending identifier found hfound
      rw [hcarriers, hsame]
      exact h.carried (by omega) identifier pending hget
    · rw [hcarriers] at hpos
      rw [hid]
      exact h.fresh (by omega) identifier requestId hpos
  | opened opening hcarriers hid hlength hfree hpending =>
    have hids := h.requestIds
    have hnone : world.calls.length + 1 < 2 ^ 64 →
        carriers opening world.state.nextRequestId world = 0 := by
      intro hbound
      rcases Nat.eq_zero_or_pos (carriers opening world.state.nextRequestId world) with hzero | hpos
      · exact hzero
      · exact absurd (h.fresh hbound _ _ hpos) (lt_irrefl _)
    refine ⟨?_, fun hbound identifier found hfound => ?_, fun hbound identifier requestId hpos => ?_⟩
    · rw [hid, hlength]
      exact (nextId_le _).trans (by omega)
    · rw [hcarriers]
      rcases hpending identifier found hfound with ⟨rfl, hnew⟩ | hold
      · rw [hnew, counts_self, hnone (by omega)]
      · rw [counts_of_ne, h.carried (by omega) identifier found hold]
        rintro ⟨rfl, _⟩
        rw [hfree] at hold
        cases hold
    · rw [hid, nextId_eq (by omega)]
      rw [hcarriers] at hpos
      by_cases hsame : opening = identifier ∧ world.state.nextRequestId = requestId
      · omega
      · rw [counts_of_ne hsame] at hpos
        exact (h.fresh (by omega) identifier requestId hpos).trans (Nat.lt_succ_self _)
  | left _ _ hcarriers hid hpending =>
    refine ⟨?_, fun hbound identifier found hfound => ?_, fun hbound identifier requestId hpos => ?_⟩
    · have hids := h.requestIds
      omega
    · obtain ⟨hget, hne⟩ := hpending identifier found hfound
      have hsum := hcarriers identifier found.requestId
      rw [counts_of_ne hne, h.carried (by omega) identifier found hget] at hsum
      omega
    · have hsum := hcarriers identifier requestId
      rw [hid]
      exact h.fresh (by omega) identifier requestId (by omega)

theorem requested_new (config : TextureConfig) : Requested (World.new config) := by
  refine ⟨le_refl 1, fun _ identifier pending h => ?_, fun _ identifier requestId hpos => ?_⟩
  · cases h
  · cases hpos

end Nexus.Textures
