import Mathlib.Data.List.Sort
import Mathlib.Data.Prod.Lex
import Mathlib.Order.Fin.Basic
import Nexus.PrimaryClassifier

namespace Nexus.Render

section Sorting

variable {α β : Type} [LinearOrder β] {key : α → β} {le : α → α → Bool}

theorem pairwise_mergeSort_key (hle : ∀ a b, le a b = true ↔ key a ≤ key b) (l : List α) :
    (l.mergeSort le).Pairwise fun a b => key a ≤ key b := by
  have htrans : ∀ a b c, le a b = true → le b c = true → le a c = true := by
    intro a b c hab hbc
    exact (hle a c).mpr (((hle a b).mp hab).trans ((hle b c).mp hbc))
  have htotal : ∀ a b, (le a b || le b a) = true := by
    intro a b
    rw [Bool.or_eq_true, hle, hle]
    exact le_total (key a) (key b)
  exact (List.pairwise_mergeSort htrans htotal l).imp fun {a b} h => (hle a b).mp h

theorem mergeSort_eq_of_perm (hle : ∀ a b, le a b = true ↔ key a ≤ key b) {l l' : List α}
    (hperm : l.Perm l') (hinj : ∀ a ∈ l, ∀ b ∈ l, key a = key b → a = b) :
    l.mergeSort le = l'.mergeSort le := by
  refine List.Perm.eq_of_pairwise (fun a b ha hb hab hba => ?_) (pairwise_mergeSort_key hle l)
    (pairwise_mergeSort_key hle l') ?_
  · have ha' : a ∈ l := (List.mergeSort_perm l le).mem_iff.mp ha
    have hb' : b ∈ l := hperm.mem_iff.mpr ((List.mergeSort_perm l' le).mem_iff.mp hb)
    exact hinj a ha' b hb' (le_antisymm hab hba)
  · exact (List.mergeSort_perm l le).trans (hperm.trans (List.mergeSort_perm l' le).symm)

end Sorting

namespace PrimarySwapChainClassifier

def strength (observation : SwapChainObservation) (classifier : PrimarySwapChainClassifier) :
    Bool ×ₗ Bool ×ₗ Nat :=
  toLex (classifier.matchesExpectedWindow observation,
    toLex (observation.activity.foreground, observation.size.area))

def rank (observation : SwapChainObservation) (classifier : PrimarySwapChainClassifier) :
    Bool ×ₗ Bool ×ₗ Nat ×ₗ Bool ×ₗ Nat ×ₗ Nat ×ₗ Nat ×ₗ Natᵒᵈ :=
  toLex (classifier.matchesExpectedWindow observation,
    toLex (observation.activity.foreground,
      toLex (observation.size.area,
        toLex (classifier.isCurrent observation,
          toLex (observation.activity.consecutivePresentCycles,
            toLex (observation.activity.lastPresentSequence,
              toLex (observation.activity.presentCount, OrderDual.toDual observation.id)))))))

theorem compare_bool_lt : ∀ a b : Bool, compare a b = .lt ↔ a < b := by decide

theorem compare_bool_eq : ∀ a b : Bool, compare a b = .eq ↔ a = b := by decide

theorem compareRanks_isLE (left right : SwapChainObservation)
    (classifier : PrimarySwapChainClassifier) :
    (classifier.compareRanks left right).isLE = true ↔
      classifier.rank left ≤ classifier.rank right := by
  unfold compareRanks rank
  simp only [Ordering.isLE_then_iff_or, compare_bool_lt, compare_bool_eq, Nat.compare_eq_lt,
    Nat.compare_eq_eq, Nat.isLE_compare, Prod.Lex.toLex_le_toLex, OrderDual.toDual_le_toDual]

theorem id_eq_of_rank {left right : SwapChainObservation} {classifier : PrimarySwapChainClassifier}
    (h : classifier.rank left = classifier.rank right) : left.id = right.id := by
  have hcomponents : (ofLex (ofLex (ofLex (ofLex (ofLex (ofLex (ofLex
      (classifier.rank left)).2).2).2).2).2).2).2 = (ofLex (ofLex (ofLex (ofLex (ofLex (ofLex (ofLex
      (classifier.rank right)).2).2).2).2).2).2).2 := by rw [h]
  exact hcomponents

/-- The components of a rank as numbers, each with the reason that names it. -/
def components (classifier : PrimarySwapChainClassifier) :
    List (SelectionReason × (SwapChainObservation → Nat)) :=
  [(.expectedGameWindow, fun observation => (classifier.matchesExpectedWindow observation).toNat),
    (.foregroundWindow, fun observation => observation.activity.foreground.toNat),
    (.largestSurface, fun observation => observation.size.area),
    (.retainedPrimary, fun observation => (classifier.isCurrent observation).toNat),
    (.longestActiveStreak, fun observation => observation.activity.consecutivePresentCycles),
    (.mostRecentPresentation, fun observation => observation.activity.lastPresentSequence),
    (.highestPresentationCount, fun observation => observation.activity.presentCount),
    (.stableIdentityTieBreak, fun observation => observation.id)]

/-- Whether a reason names the first component in which two candidates differ. -/
def Names (winner runnerUp : SwapChainObservation) (reason : SelectionReason)
    (classifier : PrimarySwapChainClassifier) : Prop :=
  ∃ before component after, classifier.components = before ++ (reason, component) :: after ∧
    component winner ≠ component runnerUp ∧
      ∀ earlier ∈ before, earlier.2 winner = earlier.2 runnerUp

theorem toNat_ne {a b : Bool} (h : a ≠ b) : a.toNat ≠ b.toNat := by
  revert a b
  decide

theorem selectionReason_names {winner runnerUp : SwapChainObservation}
    (hid : winner.id ≠ runnerUp.id) (classifier : PrimarySwapChainClassifier) :
    classifier.Names winner runnerUp (classifier.selectionReason winner runnerUp) := by
  unfold selectionReason
  split
  next h => exact ⟨[], _, _, rfl, toNat_ne h, by simp⟩
  next hwindow =>
  have hwindow := not_not.mp hwindow
  split
  next h =>
    refine ⟨classifier.components.take 1, _, _, rfl, toNat_ne h, ?_⟩
    simp [components, hwindow]
  next hforeground =>
  have hforeground := not_not.mp hforeground
  split
  next h =>
    refine ⟨classifier.components.take 2, _, _, rfl, h, ?_⟩
    simp [components, hwindow, hforeground]
  next harea =>
  have harea := not_not.mp harea
  split
  next h =>
    refine ⟨classifier.components.take 3, _, _, rfl, toNat_ne h, ?_⟩
    simp [components, hwindow, hforeground, harea]
  next hcurrent =>
  have hcurrent := not_not.mp hcurrent
  split
  next h =>
    refine ⟨classifier.components.take 4, _, _, rfl, h, ?_⟩
    simp [components, hwindow, hforeground, harea, hcurrent]
  next hstreak =>
  have hstreak := not_not.mp hstreak
  split
  next h =>
    refine ⟨classifier.components.take 5, _, _, rfl, h, ?_⟩
    simp [components, hwindow, hforeground, harea, hcurrent, hstreak]
  next hsequence =>
  have hsequence := not_not.mp hsequence
  split
  next h =>
    refine ⟨classifier.components.take 6, _, _, rfl, h, ?_⟩
    simp [components, hwindow, hforeground, harea, hcurrent, hstreak, hsequence]
  next hcount =>
  have hcount := not_not.mp hcount
  refine ⟨classifier.components.take 7, _, _, rfl, hid, ?_⟩
  simp [components, hwindow, hforeground, harea, hcurrent, hstreak, hsequence, hcount]

theorem strength_lt_of_current {winner previous : SwapChainObservation}
    {classifier : PrimarySwapChainClassifier}
    (hrank : classifier.rank previous ≤ classifier.rank winner)
    (hcurrent : classifier.current = some previous.id) (hid : winner.id ≠ previous.id) :
    classifier.strength previous < classifier.strength winner := by
  have hprevious : classifier.isCurrent previous = true := decide_eq_true hcurrent
  have hwinner : classifier.isCurrent winner = false := by
    refine decide_eq_false fun h => hid ?_
    rw [hcurrent] at h
    exact (Option.some.inj h).symm
  unfold rank at hrank
  unfold strength
  simp only [Prod.Lex.toLex_le_toLex, hprevious, hwinner] at hrank
  simp only [Prod.Lex.toLex_lt_toLex]
  rcases hrank with h | ⟨hwindow, h | ⟨hforeground, h | ⟨_, h | ⟨h, _⟩⟩⟩⟩
  · exact .inl h
  · exact .inr ⟨hwindow, .inl h⟩
  · exact .inr ⟨hwindow, .inr ⟨hforeground, h⟩⟩
  · exact absurd h (by decide)
  · cases h

/-- The newest sequence that candidates are measured against. -/
def latestSequence (observations : List SwapChainObservation) (latestPresentSequence : Nat) : Nat :=
  max latestPresentSequence ((observations.map fun observation =>
    observation.activity.lastPresentSequence).foldl max 0)

def Eligible (observations : List SwapChainObservation) (latestPresentSequence : Nat)
    (classifier : PrimarySwapChainClassifier) (observation : SwapChainObservation) : Prop :=
  observation ∈ observations ∧ classifier.rejectionReason observation
    (latestSequence observations latestPresentSequence) = none

def rejections (observations : List SwapChainObservation) (latestPresentSequence : Nat)
    (classifier : PrimarySwapChainClassifier) : List CandidateRejection :=
  (observations.filterMap fun observation =>
    (classifier.rejectionReason observation
      (latestSequence observations latestPresentSequence)).map fun reason =>
        (⟨observation.id, reason⟩ : CandidateRejection)).mergeSort fun left right =>
          left.id ≤ right.id

def candidates (observations : List SwapChainObservation) (latestPresentSequence : Nat)
    (classifier : PrimarySwapChainClassifier) : List SwapChainObservation :=
  (observations.filter fun observation => (classifier.rejectionReason observation
    (latestSequence observations latestPresentSequence)).isNone).mergeSort
      fun left right => (classifier.compareRanks left right).isLE

section Lists

variable {observations permuted : List SwapChainObservation}
  {classifier : PrimarySwapChainClassifier}

theorem eq_of_id (hids : (observations.map SwapChainObservation.id).Nodup)
    {left right : SwapChainObservation} (hleft : left ∈ observations)
    (hright : right ∈ observations) (h : left.id = right.id) : left = right := List.inj_on_of_nodup_map hids hleft hright h

theorem mem_candidates {latestPresentSequence : Nat} {observation : SwapChainObservation} :
    observation ∈ classifier.candidates observations latestPresentSequence ↔
      classifier.Eligible observations latestPresentSequence observation := by
  unfold candidates Eligible
  rw [List.mem_mergeSort, List.mem_filter, Option.isNone_iff_eq_none]

theorem mem_rejections {latestPresentSequence : Nat} {rejection : CandidateRejection} :
    rejection ∈ classifier.rejections observations latestPresentSequence ↔
      ∃ observation ∈ observations, rejection.id = observation.id ∧
        classifier.rejectionReason observation
          (latestSequence observations latestPresentSequence) = some rejection.reason := by
  unfold rejections
  rw [List.mem_mergeSort, List.mem_filterMap]
  constructor
  · rintro ⟨observation, hmem, hsome⟩
    obtain ⟨reason, hreason, rfl⟩ := Option.map_eq_some_iff.mp hsome
    exact ⟨observation, hmem, rfl, hreason⟩
  · rintro ⟨observation, hmem, hid, hreason⟩
    refine ⟨observation, hmem, ?_⟩
    rw [hreason, Option.map_some, ← hid]

theorem rejection_eq_of_id (hids : (observations.map SwapChainObservation.id).Nodup)
    {latestPresentSequence : Nat} {left right : CandidateRejection}
    (hleft : left ∈ classifier.rejections observations latestPresentSequence)
    (hright : right ∈ classifier.rejections observations latestPresentSequence)
    (h : left.id = right.id) : left = right := by
  obtain ⟨_, hmem, hid, hreason⟩ := mem_rejections.mp hleft
  obtain ⟨_, hother, hid', hreason'⟩ := mem_rejections.mp hright
  obtain rfl := eq_of_id hids hmem hother (hid.symm.trans (h.trans hid'))
  rw [hreason] at hreason'
  cases left
  cases right
  cases h
  cases hreason'
  rfl

theorem latestSequence_perm (hperm : observations.Perm permuted) (latestPresentSequence : Nat) :
    latestSequence observations latestPresentSequence =
      latestSequence permuted latestPresentSequence := by
  unfold latestSequence
  rw [(hperm.map fun observation => observation.activity.lastPresentSequence).foldl_eq 0]

theorem candidates_perm (hids : (observations.map SwapChainObservation.id).Nodup)
    (hperm : observations.Perm permuted) (latestPresentSequence : Nat) :
    classifier.candidates observations latestPresentSequence =
      classifier.candidates permuted latestPresentSequence := by
  unfold candidates
  rw [latestSequence_perm hperm]
  refine mergeSort_eq_of_perm (fun left right => compareRanks_isLE left right classifier)
    (hperm.filter _) fun left hleft right hright h => ?_
  exact eq_of_id hids (List.mem_of_mem_filter hleft) (List.mem_of_mem_filter hright)
    (id_eq_of_rank h)

theorem rejections_perm (hids : (observations.map SwapChainObservation.id).Nodup)
    (hperm : observations.Perm permuted) (latestPresentSequence : Nat) :
    classifier.rejections observations latestPresentSequence =
      classifier.rejections permuted latestPresentSequence := by
  have hinj : ∀ left right, left ∈ classifier.rejections observations latestPresentSequence →
      right ∈ classifier.rejections observations latestPresentSequence →
        left.id = right.id → left = right :=
    fun left right hleft hright => rejection_eq_of_id hids hleft hright
  unfold rejections at hinj ⊢
  rw [← latestSequence_perm hperm]
  have hle : ∀ left right : CandidateRejection,
      decide (left.id ≤ right.id) = true ↔ left.id ≤ right.id := fun _ _ => decide_eq_true_iff
  refine mergeSort_eq_of_perm hle (hperm.filterMap _) fun left hleft right hright h => ?_
  exact hinj left right (List.mem_mergeSort.mpr hleft) (List.mem_mergeSort.mpr hright) h

theorem tryOverride_perm (hids : (observations.map SwapChainObservation.id).Nodup)
    (hperm : observations.Perm permuted) :
    classifier.tryOverride observations = classifier.tryOverride permuted := by
  have hfind : ∀ id, (observations.find? fun observation => observation.id = id) =
      permuted.find? fun observation => observation.id = id := by
    intro id
    cases hfound : observations.find? fun observation => observation.id = id with
    | none =>
      refine (List.find?_eq_none.mpr fun observation hmem => ?_).symm
      exact List.find?_eq_none.mp hfound observation (hperm.mem_iff.mpr hmem)
    | some found =>
      have hid : found.id = id := by simpa using List.find?_some hfound
      have hmem := List.mem_of_find?_eq_some hfound
      cases hother : permuted.find? fun observation => observation.id = id with
      | none =>
        exact absurd (by simpa using hid)
          (List.find?_eq_none.mp hother found (hperm.mem_iff.mp hmem))
      | some other =>
        have hid' : other.id = id := by simpa using List.find?_some hother
        have hmem' := hperm.mem_iff.mpr (List.mem_of_find?_eq_some hother)
        rw [eq_of_id hids hmem hmem' (hid.trans hid'.symm)]
  unfold tryOverride
  cases classifier.config.userOverride with
  | none => rfl
  | some =>
    dsimp only
    rw [hfind]

theorem classify_perm (hids : (observations.map SwapChainObservation.id).Nodup)
    (hperm : observations.Perm permuted) (latestPresentSequence : Nat) :
    classifier.classifyWithLatestPresentSequence observations latestPresentSequence =
      classifier.classifyWithLatestPresentSequence permuted latestPresentSequence := by
  have hcandidates : classifier.candidates observations latestPresentSequence =
      classifier.candidates permuted latestPresentSequence := candidates_perm hids hperm _
  have hrejections : classifier.rejections observations latestPresentSequence =
      classifier.rejections permuted latestPresentSequence := rejections_perm hids hperm _
  have hempty : observations.isEmpty = permuted.isEmpty := by
    rw [Bool.eq_iff_iff, List.isEmpty_iff, List.isEmpty_iff]
    exact ⟨fun h => (h ▸ hperm).nil_eq.symm, fun h => (h ▸ hperm).eq_nil⟩
  unfold candidates latestSequence at hcandidates
  unfold rejections latestSequence at hrejections
  unfold classifyWithLatestPresentSequence
  dsimp only
  rw [tryOverride_perm hids hperm, hcandidates, hrejections, hempty]

theorem classify_automatic (hoverride : ∀ id, classifier.tryOverride observations ≠ .applied id)
    (latestPresentSequence : Nat) :
    classifier.classifyWithLatestPresentSequence observations latestPresentSequence =
      match (classifier.candidates observations latestPresentSequence).reverse with
      | [] =>
        (⟨none, none,
          some (if observations.isEmpty then .noObservations else .noEligibleCandidates),
          classifier.tryOverride observations,
          classifier.rejections observations latestPresentSequence⟩,
          { classifier with current := none })
      | winner :: rest =>
        (⟨some winner.id, some (classifier.winnerReason winner rest), none,
          classifier.tryOverride observations,
          classifier.rejections observations latestPresentSequence⟩,
          { classifier with current := some winner.id }) := by
  unfold classifyWithLatestPresentSequence
  dsimp only
  split
  next id h => exact absurd h (hoverride id)
  next => rfl

end Lists

/-- The best of the candidates other than the winner. -/
structure SecondRanked (observations : List SwapChainObservation) (latestPresentSequence : Nat)
    (classifier : PrimarySwapChainClassifier) (winner runnerUp : SwapChainObservation) : Prop where
  eligible : classifier.Eligible observations latestPresentSequence runnerUp
  other : runnerUp ≠ winner
  greatest : ∀ candidate, classifier.Eligible observations latestPresentSequence candidate →
    candidate ≠ winner → classifier.rank candidate ≤ classifier.rank runnerUp

structure Selects (observations : List SwapChainObservation) (latestPresentSequence : Nat)
    (classifier : PrimarySwapChainClassifier) (winner : SwapChainObservation)
    (reason : SelectionReason) : Prop where
  eligible : classifier.Eligible observations latestPresentSequence winner
  greatest : ∀ candidate, classifier.Eligible observations latestPresentSequence candidate →
    classifier.rank candidate ≤ classifier.rank winner
  named : ∀ runnerUp, classifier.SecondRanked observations latestPresentSequence winner runnerUp →
    classifier.Names winner runnerUp reason
  alone : (∀ candidate, classifier.Eligible observations latestPresentSequence candidate →
    candidate = winner) → reason = if classifier.matchesExpectedWindow winner then
      .expectedGameWindow else .onlyEligibleCandidate
  retained : ∀ previous, classifier.Eligible observations latestPresentSequence previous →
    classifier.current = some previous.id → winner.id ≠ previous.id →
      classifier.strength previous < classifier.strength winner

theorem selects_last {observations : List SwapChainObservation} {latestPresentSequence : Nat}
    {classifier : PrimarySwapChainClassifier}
    (hids : (observations.map SwapChainObservation.id).Nodup) {winner : SwapChainObservation}
    {rest : List SwapChainObservation}
    (h : (classifier.candidates observations latestPresentSequence).reverse = winner :: rest) :
    classifier.Selects observations latestPresentSequence winner
      (classifier.winnerReason winner rest) := by
  have hmem : ∀ candidate, classifier.Eligible observations latestPresentSequence candidate ↔
      candidate = winner ∨ candidate ∈ rest := by
    intro candidate
    rw [← mem_candidates, ← List.mem_reverse, h, List.mem_cons]
  have hsorted : (winner :: rest).Pairwise fun a b => classifier.rank b ≤ classifier.rank a := by
    rw [← h, List.pairwise_reverse]
    exact pairwise_mergeSort_key (fun left right => compareRanks_isLE left right classifier) _
  obtain ⟨hwinner, hrest⟩ := List.pairwise_cons.mp hsorted
  have heligible := (hmem winner).mpr (.inl rfl)
  have hgreatest : ∀ candidate, classifier.Eligible observations latestPresentSequence candidate →
      classifier.rank candidate ≤ classifier.rank winner := by
    intro candidate hcandidate
    rcases (hmem candidate).mp hcandidate with rfl | hcandidate
    · exact le_refl _
    · exact hwinner candidate hcandidate
  have hnodup : (winner :: rest).Nodup := by
    rw [← h, List.nodup_reverse]
    exact (List.mergeSort_perm _ _).nodup_iff.mpr ((List.Nodup.of_map _ hids).filter _)
  refine ⟨heligible, hgreatest, fun runnerUp hsecond => ?_, fun halone => ?_,
    fun previous hprevious hcurrent hid =>
      strength_lt_of_current (hgreatest previous hprevious) hcurrent hid⟩
  · cases rest with
    | nil =>
      rcases (hmem runnerUp).mp hsecond.eligible with rfl | hnone
      · exact absurd rfl hsecond.other
      · cases hnone
    | cons second =>
      have hsecondMem := (hmem second).mpr (.inr List.mem_cons_self)
      have hne : second ≠ winner := by
        rintro rfl
        exact (List.nodup_cons.mp hnodup).1 List.mem_cons_self
      -- The two second-ranked candidates have one rank.
      have hle : classifier.rank runnerUp ≤ classifier.rank second := by
        rcases (hmem runnerUp).mp hsecond.eligible with rfl | hrunner
        · exact absurd rfl hsecond.other
        · rcases List.mem_cons.mp hrunner with rfl | hrunner
          · exact le_refl _
          · exact (List.pairwise_cons.mp hrest).1 runnerUp hrunner
      have hsame := le_antisymm hle (hsecond.greatest second hsecondMem hne)
      obtain rfl := eq_of_id hids hsecond.eligible.1 hsecondMem.1 (id_eq_of_rank hsame)
      exact selectionReason_names (fun hid =>
        hne (eq_of_id hids hsecondMem.1 heligible.1 hid.symm)) classifier
  · cases rest with
    | nil => rfl
    | cons second =>
      have hsecond := halone second ((hmem second).mpr (.inr List.mem_cons_self))
      rw [hsecond] at hnodup
      exact absurd List.mem_cons_self (List.nodup_cons.mp hnodup).1

theorem map_id_filterMap (reject : SwapChainObservation → Option RejectionReason)
    (observations : List SwapChainObservation) :
    ((observations.filterMap fun observation => (reject observation).map fun reason =>
        (⟨observation.id, reason⟩ : CandidateRejection)).map CandidateRejection.id) =
      (observations.filter fun observation => (reject observation).isSome).map
        SwapChainObservation.id := by
  induction observations with
  | nil => rfl
  | cons observation _ ih =>
    cases hreject : reject observation <;> simp [hreject, ih]

theorem rejections_sorted {observations : List SwapChainObservation} {latestPresentSequence : Nat}
    {classifier : PrimarySwapChainClassifier}
    (hids : (observations.map SwapChainObservation.id).Nodup) :
    (classifier.rejections observations latestPresentSequence).Pairwise
      fun a b => a.id < b.id := by
  have hle : ∀ left right : CandidateRejection,
      decide (left.id ≤ right.id) = true ↔ left.id ≤ right.id := fun _ _ => decide_eq_true_iff
  have hnodup : ((classifier.rejections observations latestPresentSequence).map
      CandidateRejection.id).Nodup := by
    unfold rejections
    refine ((List.mergeSort_perm _ _).map CandidateRejection.id).nodup_iff.mpr ?_
    rw [map_id_filterMap]
    exact hids.sublist (List.filter_sublist.map _)
  have hne := List.pairwise_map.mp hnodup
  have hsorted := pairwise_mergeSort_key hle (observations.filterMap fun observation =>
    (classifier.rejectionReason observation
      (latestSequence observations latestPresentSequence)).map fun reason =>
        (⟨observation.id, reason⟩ : CandidateRejection))
  exact (hsorted.and hne).imp fun h => Nat.lt_of_le_of_ne h.1 h.2

/-- One pass gives the same for every order of the observations. Without an applied override it
splits them into rejections and candidates, and selects the candidate of the greatest rank. -/
theorem classification_is_order_independent_and_maximal (classifier : PrimarySwapChainClassifier)
    (latestPresentSequence : Nat) {observations : List SwapChainObservation}
    (hids : (observations.map SwapChainObservation.id).Nodup) :
    (∀ permuted, observations.Perm permuted →
      classifier.classifyWithLatestPresentSequence permuted latestPresentSequence =
        classifier.classifyWithLatestPresentSequence observations latestPresentSequence) ∧
    ((∀ id, classifier.tryOverride observations ≠ .applied id) →
      ∃ result, classifier.classifyWithLatestPresentSequence observations latestPresentSequence =
          (result, { classifier with current := result.selected }) ∧
        (∀ rejection, rejection ∈ result.rejected ↔
          ∃ observation ∈ observations, rejection.id = observation.id ∧
            classifier.rejectionReason observation
              (latestSequence observations latestPresentSequence) = some rejection.reason) ∧
        (result.rejected.Pairwise fun a b => a.id < b.id) ∧
        (∀ observation ∈ observations,
          classifier.Eligible observations latestPresentSequence observation ↔
            ¬∃ rejection ∈ result.rejected, rejection.id = observation.id) ∧
        ((∃ winner reason, classifier.Selects observations latestPresentSequence winner reason ∧
            result.selected = some winner.id ∧ result.selectionReason = some reason ∧
            result.noSelectionReason = none) ∨
          (∀ candidate, ¬classifier.Eligible observations latestPresentSequence candidate) ∧
            result.selected = none ∧ result.selectionReason = none ∧
            result.noSelectionReason = some (if observations = [] then .noObservations
              else .noEligibleCandidates))) := by
  refine ⟨fun permuted hperm => (classify_perm hids hperm latestPresentSequence).symm,
    fun hoverride => ?_⟩
  have hsplit : ∀ observation ∈ observations,
      classifier.Eligible observations latestPresentSequence observation ↔
        ¬∃ rejection ∈ classifier.rejections observations latestPresentSequence,
          rejection.id = observation.id := by
    intro observation hmem
    constructor
    · rintro ⟨_, hnone⟩ ⟨rejection, hrejection, hid⟩
      obtain ⟨_, hother, hid', hreason⟩ := mem_rejections.mp hrejection
      obtain rfl := eq_of_id hids hmem hother (hid.symm.trans hid')
      rw [hnone] at hreason
      cases hreason
    · intro hnone
      refine ⟨hmem, ?_⟩
      cases hreason : classifier.rejectionReason observation
          (latestSequence observations latestPresentSequence) with
      | none => rfl
      | some reason =>
        exact absurd ⟨⟨observation.id, reason⟩,
          mem_rejections.mpr ⟨observation, hmem, rfl, hreason⟩, rfl⟩ hnone
  rw [classify_automatic hoverride]
  split
  next hnone =>
    refine ⟨_, rfl, fun _ => mem_rejections, rejections_sorted hids, hsplit,
      .inr ⟨?_, rfl, rfl, ?_⟩⟩
    · intro candidate hcandidate
      rw [← mem_candidates, ← List.mem_reverse, hnone] at hcandidate
      cases hcandidate
    · cases observations <;> rfl
  next winner _ hwinner =>
    exact ⟨_, rfl, fun _ => mem_rejections, rejections_sorted hids, hsplit,
      .inl ⟨winner, _, selects_last hids hwinner, rfl, rfl, rfl⟩⟩

def twoWindows : List SwapChainObservation :=
  [⟨1, some 10, 1, ⟨2, 0⟩, .bgra8Unorm, .srgb, ⟨1920, 1080⟩, .present,
      ⟨9, 7, 9, true, false, false⟩⟩,
    ⟨2, some 20, 1, ⟨2, 0⟩, .bgra8Unorm, .srgb, ⟨1920, 1080⟩, .present,
      ⟨5, 7, 5, true, false, false⟩⟩]

def retaining : PrimarySwapChainClassifier := ⟨⟨none, false, none, ⟨640, 480⟩, 8⟩, some 2⟩

theorem two_windows_in_either_order :
    retaining.classifyWithLatestPresentSequence twoWindows.reverse 7 =
      retaining.classifyWithLatestPresentSequence twoWindows 7 := by
  have hids : (twoWindows.map SwapChainObservation.id).Nodup := by decide
  exact (classification_is_order_independent_and_maximal retaining 7 hids).1 _
    (List.reverse_perm _).symm

/-- The primary may be selected automatically in the pass, and no candidate has more of what comes
before its retention. -/
structure Unbeaten (primary : Nat) (classifier : PrimarySwapChainClassifier)
    (pass : List SwapChainObservation × Nat) : Prop where
  ids : (pass.1.map SwapChainObservation.id).Nodup
  automatic : ∀ id, classifier.tryOverride pass.1 ≠ .applied id
  strongest : ∃ previous, classifier.Eligible pass.1 pass.2 previous ∧ previous.id = primary ∧
    ∀ candidate, classifier.Eligible pass.1 pass.2 candidate →
      classifier.strength candidate ≤ classifier.strength previous

theorem classify_unbeaten {primary : Nat} {classifier : PrimarySwapChainClassifier}
    {pass : List SwapChainObservation × Nat} (hcurrent : classifier.current = some primary)
    (h : classifier.Unbeaten primary pass) :
    let outcome := classifier.classifyWithLatestPresentSequence pass.1 pass.2
    outcome.1.selected = some primary ∧ outcome.2 = classifier := by
  obtain ⟨previous, heligible, rfl, hstrongest⟩ := h.strongest
  dsimp only
  rw [classify_automatic h.automatic]
  split
  next hnone =>
    rw [← mem_candidates, ← List.mem_reverse, hnone] at heligible
    cases heligible
  next winner _ hwinner =>
    have hselects := selects_last h.ids hwinner
    have hid : winner.id = previous.id := by
      by_contra hother
      have hlt := hselects.retained previous heligible hcurrent hother
      exact absurd (hstrongest winner hselects.eligible) (not_le_of_gt hlt)
    exact ⟨congrArg some hid, by rw [hid, ← hcurrent]⟩

def classifyAll (classifier : PrimarySwapChainClassifier) :
    List (List SwapChainObservation × Nat) → List Classification × PrimarySwapChainClassifier
  | [] => ([], classifier)
  | (observations, latestPresentSequence) :: passes =>
    let outcome := classifier.classifyWithLatestPresentSequence observations latestPresentSequence
    let rest := outcome.2.classifyAll passes
    (outcome.1 :: rest.1, rest.2)

/-- Streaks, recency, counts and identities never replace a primary: it is selected by pass after
pass until one rejects it, sees more in another candidate, or applies an override. -/
theorem unbeaten_primary_is_kept {primary : Nat} {classifier : PrimarySwapChainClassifier}
    {passes : List (List SwapChainObservation × Nat)}
    (hcurrent : classifier.current = some primary)
    (h : ∀ pass ∈ passes, classifier.Unbeaten primary pass) :
    (∀ result ∈ (classifier.classifyAll passes).1, result.selected = some primary) ∧
      (classifier.classifyAll passes).2 = classifier := by
  induction passes with
  | nil => exact ⟨nofun, rfl⟩
  | cons pass passes ih =>
    obtain ⟨hselected, hsame⟩ := classify_unbeaten hcurrent (h pass List.mem_cons_self)
    have hrest := ih fun later hlater => h later (List.mem_cons_of_mem _ hlater)
    unfold classifyAll
    dsimp only
    rw [hsame]
    refine ⟨fun result hresult => ?_, hrest.2⟩
    rcases List.mem_cons.mp hresult with rfl | hlater
    · exact hselected
    · exact hrest.1 result hlater

theorem kept_against_a_longer_streak :
    (retaining.classifyAll [(twoWindows, 7), (twoWindows, 7)]).2 = retaining := by
  have hunbeaten : retaining.Unbeaten 2 (twoWindows, 7) := by
    refine ⟨by decide, nofun, twoWindows[1], ⟨List.getElem_mem _, rfl⟩, rfl, ?_⟩
    rintro candidate ⟨hmem, -⟩
    rcases List.mem_pair.mp hmem with rfl | rfl <;> exact le_refl _
  refine (unbeaten_primary_is_kept rfl fun pass hpass => ?_).2
  rcases List.mem_pair.mp hpass with rfl | rfl <;> exact hunbeaten

end PrimarySwapChainClassifier

end Nexus.Render
