import Nexus.TextureHistory

namespace Nexus.Textures

open StepRuns

section Closings

variable (identifier : String) (requestId : Nat)

def Event.closes : Event → Bool
  | .resolved other otherId _ => other = identifier ∧ otherId = requestId
  | .cancelled other otherId => other = identifier ∧ otherId = requestId
  | _ => false

def pendingAs (state : RegistryState) : Nat :=
  if ∃ pending ∈ state.pending.get? identifier, pending.requestId = requestId then 1 else 0

def unclosed (state : RegistryState) : Nat :=
  pendingAs identifier requestId state + if state.nextRequestId ≤ requestId then 1 else 0

end Closings

variable {world next : World} {requestId : Nat} {identifier : String} {state : RegistryState}
  {pending : PendingRequest}

theorem pendingAs_of_some (hget : state.pending.get? identifier = some pending) :
    pendingAs identifier requestId state = if pending.requestId = requestId then 1 else 0 := by
  unfold pendingAs
  rw [hget]
  simp only [Option.mem_def, Option.some.injEq, exists_eq_left']

theorem pendingAs_of_none (hget : state.pending.get? identifier = none) :
    pendingAs identifier requestId state = 0 := by
  unfold pendingAs
  rw [hget]
  exact if_neg fun ⟨_, h, _⟩ => by cases h

theorem pendingAs_le {before after : RegistryState}
    (h : ∀ found, after.pending.get? identifier = some found →
      ∃ pending, before.pending.get? identifier = some pending ∧
        found.requestId = pending.requestId) :
    pendingAs identifier requestId after ≤ pendingAs identifier requestId before := by
  rcases hget : after.pending.get? identifier with _ | found
  · rw [pendingAs_of_none hget]
    exact Nat.zero_le _
  · obtain ⟨pending, hpending, hsame⟩ := h found hget
    rw [pendingAs_of_some hget, pendingAs_of_some hpending, hsame]

variable {order : List String}

theorem countP_cancelEvents (horder : order.Nodup) (state : RegistryState) :
    (cancelEvents order state).countP (Event.closes identifier requestId) =
      if identifier ∈ order then pendingAs identifier requestId state else 0 := by
  unfold cancelEvents
  induction order with
  | nil => rfl
  | cons other _ ih =>
    obtain ⟨hnotMem, hnodup⟩ := List.nodup_cons.mp horder
    have hrest := ih hnodup
    rcases hget : state.pending.get? other with _ | pending
    · rw [List.filterMap_cons_none (by rw [hget]; rfl), hrest]
      by_cases hother : identifier = other
      · subst hother
        rw [if_neg hnotMem, if_pos List.mem_cons_self, pendingAs_of_none hget]
      · simp only [List.mem_cons, hother, false_or]
    · rw [List.filterMap_cons_some (by rw [hget]; rfl), List.countP_cons, hrest]
      by_cases hother : identifier = other
      · subst hother
        rw [if_neg hnotMem, if_pos List.mem_cons_self, pendingAs_of_some hget]
        simp [Event.closes]
      · simp [Event.closes, hother, Ne.symm hother]

theorem Carried.unclosed_le (h : Carried world next)
    (hids : world.state.nextRequestId ≤ world.calls.length + 1)
    (hbound : next.calls.length + 1 < 2 ^ 64) (identifier : String) (requestId : Nat) :
    unclosed identifier requestId next.state ≤ unclosed identifier requestId world.state := by
  unfold unclosed
  cases h with
  | kept _ hid hpending =>
    rw [hid]
    exact Nat.add_le_add_right (pendingAs_le fun found hfound => hpending identifier found hfound) _
  | left _ _ _ hid hpending =>
    rw [hid]
    exact Nat.add_le_add_right (pendingAs_le fun found hfound =>
      ⟨found, (hpending identifier found hfound).1, rfl⟩) _
  | opened _ _ hid _ hfree hpending =>
    rw [hid, nextId_eq (by omega)]
    rcases hget : next.state.pending.get? identifier with _ | found
    · rw [pendingAs_of_none hget]
      split <;> split <;> omega
    · rw [pendingAs_of_some hget]
      rcases hpending identifier found hget with ⟨rfl, hnew⟩ | hold
      · rw [pendingAs_of_none hfree, hnew]
        split <;> split <;> split <;> omega
      · rw [pendingAs_of_some hold]
        split <;> split <;> split <;> omega

theorem unclosed_erase {taken : String} (hget : state.pending.get? taken = some pending)
    {registry : SortedMap String TextureHandle} (identifier : String) (requestId : Nat) :
    (if taken = identifier ∧ pending.requestId = requestId then 1 else 0) +
        unclosed identifier requestId { state with pending := state.pending.erase taken, registry } =
      unclosed identifier requestId state := by
  unfold unclosed
  dsimp only
  by_cases htaken : taken = identifier
  · subst htaken
    have hnone : ({ state with pending := state.pending.erase taken, registry } :
        RegistryState).pending.get? taken = none := by
      dsimp only
      rw [SortedMap.get?_erase, if_pos rfl]
    rw [pendingAs_of_none hnone, pendingAs_of_some hget]
    simp only [true_and]
    omega
  · have hsame : pendingAs identifier requestId
        { state with pending := state.pending.erase taken, registry } =
          pendingAs identifier requestId state := by
      unfold pendingAs
      dsimp only
      rw [SortedMap.get?_erase, if_neg (Ne.symm htaken)]
    rw [hsame, if_neg fun h => htaken h.1]
    omega

theorem unclosed_cleanup {target : RequestOwner}
    (hperm : order.Perm (abandoned (forgetOwner target state))) (identifier : String)
    (requestId : Nat) :
    (cancelEvents order state).countP (Event.closes identifier requestId) +
        unclosed identifier requestId (cleanupPending target order state) ≤
      unclosed identifier requestId state := by
  have hnodup : order.Nodup := by
    rw [hperm.nodup_iff]
    exact (List.filter_sublist.map Prod.fst).nodup
      ((forgetOwner target state).pending.sorted.imp fun h => h.ne)
  unfold unclosed
  rw [countP_cancelEvents hnodup, (cleanupPending_ids target order state).1]
  by_cases hmem : identifier ∈ order
  · rw [if_pos hmem]
    have hnone : (cleanupPending target order state).pending.get? identifier = none := by
      unfold cleanupPending
      rw [foldl_cancelPending_get?, if_pos hmem]
    rw [pendingAs_of_none hnone]
    omega
  · rw [if_neg hmem]
    have hle : pendingAs identifier requestId (cleanupPending target order state) ≤
        pendingAs identifier requestId state := by
      refine pendingAs_le fun found hfound => ?_
      rw [cleanupPending_get? hperm] at hfound
      obtain ⟨pending, hget, hkept⟩ := Option.bind_eq_some_iff.mp hfound
      split at hkept
      · cases hkept
      · cases hkept
        exact ⟨pending, hget, rfl⟩
    omega

theorem countP_closes_eq_zero {events : List Event} (h : ∀ event ∈ events,
    event.closes identifier requestId = false) :
    events.countP (Event.closes identifier requestId) = 0 :=
  List.countP_eq_zero.mpr fun event hevent => by rw [h event hevent]; exact Bool.false_ne_true

theorem countP_closes_cleanup {call : Nat} {owner : OwnerGeneration} :
    (cleanupEvents call owner order state).countP (Event.closes identifier requestId) =
      (cancelEvents order state).countP (Event.closes identifier requestId) := by
  have hremoved : ((ownedCallbacks (.addon owner) state).map fun registration =>
      Event.removed registration.callback registration.owner).countP
        (Event.closes identifier requestId) = 0 := by
    refine countP_closes_eq_zero fun event hevent => ?_
    obtain ⟨registration, _, rfl⟩ := List.mem_map.mp hevent
    rfl
  unfold cleanupEvents
  rw [List.countP_append, List.countP_append, hremoved, Nat.zero_add]
  rfl

theorem countP_closes_acceptances {registration : Option CallbackRegistration} {opened : String}
    {openedId : Nat} :
    (acceptances opened openedId registration).countP (Event.closes identifier requestId) = 0 := by
  cases registration <;> rfl

theorem move_closings (h : Move world next)
    (hids : world.state.nextRequestId ≤ world.calls.length + 1)
    (hbound : next.calls.length + 1 < 2 ^ 64) (identifier : String) (requestId : Nat) :
    ∃ events, next.log = events ++ world.log ∧
      events.countP (Event.closes identifier requestId) + unclosed identifier requestId next.state ≤
        unclosed identifier requestId world.state := by
  have hle := (move_carried h).unclosed_le hids hbound identifier requestId
  cases h with
  | joined | opened =>
    refine ⟨_, rfl, ?_⟩
    rw [countP_closes_acceptances, Nat.zero_add]
    exact hle
  | cleans hperm =>
    refine ⟨_, rfl, ?_⟩
    rw [countP_closes_cleanup]
    exact unclosed_cleanup hperm identifier requestId
  | notified | checked | uploaded | entered => exact ⟨[_], rfl, (Nat.zero_add _).trans_le hle⟩
  | @failed _ _ _ _ _ _ _ _ _ hget hid =>
    refine ⟨_, rfl, ?_⟩
    rw [List.countP_append, countP_closes_eq_zero, Nat.zero_add, List.countP_singleton,
      goOn_state, record_state, ← unclosed_erase hget identifier requestId, ← hid]
    · simp only [Event.closes, decide_eq_true_eq]
      exact le_refl _
    · intro event hevent
      obtain ⟨_, _, rfl⟩ := List.mem_map.mp hevent
      rfl
  | @finished _ _ _ _ _ _ _ _ hget hid =>
    refine ⟨[_], rfl, ?_⟩
    rw [List.countP_singleton, goOn_state, record_state,
      ← unclosed_erase hget identifier requestId, ← hid]
    simp only [Event.closes, decide_eq_true_eq]
    exact le_refl _
  | swept =>
    refine ⟨_, rfl, ?_⟩
    rw [countP_closes_eq_zero, Nat.zero_add]
    · exact hle
    · intro event hevent
      rcases List.mem_cons.mp hevent with rfl | hremoved
      · rfl
      · obtain ⟨completion, _, hremoval⟩ := List.mem_flatMap.mp hremoved
        cases completion with
        | decoded => cases hremoval
        | callback =>
          rw [List.mem_singleton.mp hremoval]
          rfl
  | _ => exact ⟨[], rfl, (Nat.zero_add _).trans_le hle⟩

/-- No request is closed twice, nor closed while it is pending. -/
def ClosedOnce (world : World) : Prop :=
  world.calls.length + 1 < 2 ^ 64 → ∀ identifier requestId,
    world.log.countP (Event.closes identifier requestId) +
      unclosed identifier requestId world.state ≤ 1

theorem ClosedOnce.move (h : ClosedOnce world) (hrequested : Requested world)
    (hmove : Move world next) : ClosedOnce next := by
  intro hbound identifier requestId
  have hcalls := move_calls hmove
  have hbefore := h (by omega) identifier requestId
  obtain ⟨_, hlog, _⟩ := move_closings hmove hrequested.requestIds hbound identifier
    requestId
  rw [hlog, List.countP_append]
  omega

theorem closedOnce_new (config : TextureConfig) : ClosedOnce (World.new config) := by
  intro _ identifier requestId
  have hunclosed : unclosed identifier requestId (World.new config).state =
      if 1 ≤ requestId then 1 else 0 := Nat.zero_add _
  rw [hunclosed]
  show 0 + _ ≤ 1
  split <;> decide

end Nexus.Textures
