import Nexus.SelectionTransitions

namespace Nexus.Selection

open StepRuns

variable {δ : Type}

namespace SelectionTransitionState

variable {state : SelectionTransitionState δ} {sequence : Nat} {transition : SelectionTransition δ}

/-- The committed sequence; there is none before the first. -/
def latest (state : SelectionTransitionState δ) : Nat := state.latestSequence.getD 0

theorem all_lt_iff {bound : Option Nat} (h : 0 < sequence) :
    bound.all (· < sequence) = true ↔ bound.getD 0 < sequence := by
  cases bound with
  | none => exact ⟨fun _ => h, fun _ => rfl⟩
  | some => simp

/-- The queue holds only what is still ahead: behind the committed sequence, and behind the boundary of
an overload but for the report in flight. -/
structure Sound (state : SelectionTransitionState δ) : Prop where
  noRetry : state.retry = none
  bounded : state.pending.toList.length ≤ SELECTION_TRANSITION_CAPACITY
  latestBound : state.latest < 2 ^ 64
  ahead : ∀ key value, state.pending.get? key = some value → state.latest < key ∧ key < 2 ^ 64
  flying : ∀ inFlight, state.inFlight = some inFlight → inFlight.sequence = state.latest + 1 ∧
    ∃ diagnostic, state.pending.get? inFlight.sequence = some (.deferred diagnostic)
  behind : ∀ skipped, state.skippedThrough = some skipped → state.latest < skipped ∧
    skipped < 2 ^ 64 ∧
    (∀ inFlight, state.inFlight = some inFlight → inFlight.sequence < skipped) ∧
    ∀ key value, state.pending.get? key = some value →
      (∃ inFlight, state.inFlight = some inFlight ∧ inFlight.sequence = key) ∨ skipped < key

/-- Taking up the boundary leaves the rest of the state as it is. -/
inductive Advanced (state : SelectionTransitionState δ) : SelectionTransitionState δ → Prop
  | same : (state.inFlight = none → state.skippedThrough = none) → Advanced state state
  | skipped {through : Nat} : state.inFlight = none → state.skippedThrough = some through →
      Advanced state { state with skippedThrough := none, latestSequence := some through }

theorem Sound.advanced (h : state.Sound) : Advanced state state.advanceOverflowSkip := by
  unfold advanceOverflowSkip
  by_cases hbusy : (state.inFlight.isSome || state.retry.isSome) = true
  · rw [if_pos hbusy]
    refine .same fun hnone => ?_
    rw [hnone, h.noRetry] at hbusy
    cases hbusy
  · rw [if_neg hbusy]
    have hflight : state.inFlight = none := by simpa [h.noRetry] using hbusy
    split
    next hskipped => exact .same fun _ => hskipped
    next through hskipped =>
      have hlt := (h.behind through hskipped).1
      dsimp only
      rw [if_pos ((all_lt_iff (Nat.lt_of_le_of_lt (Nat.zero_le _) hlt)).mpr hlt)]
      exact .skipped hflight hskipped

theorem Sound.advance (h : state.Sound) : state.advanceOverflowSkip.Sound := by
  have hadvanced := h.advanced
  generalize state.advanceOverflowSkip = next at hadvanced
  cases hadvanced with
  | same => exact h
  | @skipped through hflight hskipped =>
    obtain ⟨_, hbound, _, hkeys⟩ := h.behind through hskipped
    refine ⟨h.noRetry, h.bounded, hbound, fun key value hkey => ⟨?_, (h.ahead key value hkey).2⟩,
      fun inFlight hsome => ?_, fun skipped hsome => absurd hsome.symm (Option.some_ne_none _)⟩
    · rcases hkeys key value hkey with ⟨inFlight, hsome, _⟩ | hlt
      · exact absurd (hsome.symm.trans hflight) (Option.some_ne_none _)
      · exact hlt
    · exact absurd (hsome.symm.trans hflight) (Option.some_ne_none _)

theorem Sound.advance_frame (h : state.Sound) :
    state.advanceOverflowSkip.pending = state.pending ∧
      state.advanceOverflowSkip.inFlight = state.inFlight ∧
      state.advanceOverflowSkip.deferral = state.deferral ∧
      state.advanceOverflowSkip.draining = state.draining ∧
      state.advanceOverflowSkip.resetDeferralBeforeNext = state.resetDeferralBeforeNext := by
  have hadvanced := h.advanced
  generalize state.advanceOverflowSkip = next at hadvanced
  cases hadvanced <;> exact ⟨rfl, rfl, rfl, rfl, rfl⟩

theorem Sound.advance_latest (h : state.Sound) : state.latest ≤ state.advanceOverflowSkip.latest := by
  have hadvanced := h.advanced
  generalize state.advanceOverflowSkip = next at hadvanced
  cases hadvanced with
  | same => exact Nat.le_refl _
  | skipped _ hskipped => exact Nat.le_of_lt (h.behind _ hskipped).1

theorem Sound.advance_taken (h : state.Sound) (hflight : state.inFlight = none) :
    state.advanceOverflowSkip.skippedThrough = none := by
  have hadvanced := h.advanced
  generalize state.advanceOverflowSkip = next at hadvanced
  cases hadvanced with
  | same hskipped => exact hskipped hflight
  | skipped => rfl

theorem advance_unskipped (hskipped : state.skippedThrough = none) :
    state.advanceOverflowSkip = state := by
  unfold advanceOverflowSkip
  rw [hskipped]
  split <;> rfl

theorem Sound.protectedSequence (h : state.Sound) :
    state.protectedSequence = state.inFlight.map SelectionTransitionInFlight.sequence := by
  unfold SelectionTransitionState.protectedSequence
  rw [h.noRetry, Option.or_none]

theorem Sound.accepts_iff (h : state.Sound) : state.accepts sequence = true ↔
    0 < sequence ∧ state.latest < sequence ∧
      (∀ skipped, state.skippedThrough = some skipped → skipped < sequence) ∧
      state.pending.get? sequence = none := by
  unfold accepts latest
  rw [h.noRetry]
  constructor
  · intro haccepts
    simp only [Bool.and_eq_true, decide_eq_true_eq, Option.isNone_iff_eq_none] at haccepts
    obtain ⟨⟨⟨⟨hzero, _⟩, hlatest⟩, hskipped⟩, hnone⟩ := haccepts
    have hpos := Nat.pos_of_ne_zero hzero
    refine ⟨hpos, (all_lt_iff hpos).mp hlatest, fun skipped hsome => ?_, hnone⟩
    rw [hsome] at hskipped
    simpa using hskipped
  · rintro ⟨hpos, hlatest, hskipped, hnone⟩
    simp only [Bool.and_eq_true, decide_eq_true_eq, Option.isNone_iff_eq_none]
    refine ⟨⟨⟨⟨hpos.ne', rfl⟩, (all_lt_iff hpos).mpr hlatest⟩, ?_⟩, hnone⟩
    rcases hsome : state.skippedThrough with _ | skipped
    · rfl
    · simpa using hskipped skipped hsome

/-- What the boundary leaves: the protected transition, and others that are all behind it. -/
structure Compacted (kept : Option Nat) (evicted : Nat)
    (pending : SortedMap Nat (SelectionTransition δ))
    (outcome : Nat × SortedMap Nat (SelectionTransition δ)) : Prop where
  evicted_le : evicted ≤ outcome.1
  length_le : outcome.2.toList.length ≤ pending.toList.length
  spared : ∀ key, some key = kept → outcome.2.get? key = pending.get? key
  left : ∀ key value, outcome.2.get? key = some value →
    pending.get? key = some value ∧ (some key = kept ∨ evicted < key → some key = kept ∨
      outcome.1 < key)
  bounded : ∀ bound, evicted < bound →
    (∀ key value, pending.get? key = some value → key < bound) → outcome.1 < bound

theorem retainedTailStart_mem (kept : Option Nat) (keys : List Nat) (first : Option Nat)
    {start : Nat} (h : retainedTailStart kept first keys = some start) :
    first = some start ∨ start ∈ keys := by
  induction keys generalizing first with
  | nil => exact Or.inl h
  | cons key keys ih =>
    unfold retainedTailStart at h
    have hkey {first : Option Nat} (h : first = some start ∨ start ∈ keys)
        (hfirst : first = some start → start ∈ key :: keys) : start ∈ key :: keys := by
      rcases h with h | h
      · exact hfirst h
      · exact List.mem_cons_of_mem _ h
    split at h
    · rcases ih first h with h | h
      · exact Or.inl h
      · exact Or.inr (List.mem_cons_of_mem _ h)
    split at h
    · refine Or.inr (hkey (ih _ h) fun heq => ?_)
      rw [Option.some.inj heq]
      exact List.mem_cons_self
    split at h
    · refine Or.inr (hkey (ih _ h) fun heq => ?_)
      rw [Option.some.inj heq]
      exact List.mem_cons_self
    · exact Or.inl h

variable {pending : SortedMap Nat (SelectionTransition δ)}

theorem compact_spec (kept : Option Nat) (evicted : Nat)
    (hpositive : ∀ key value, pending.get? key = some value → 0 < key) :
    Compacted kept evicted pending (compactOverloadedTail kept evicted pending) := by
  unfold compactOverloadedTail
  split
  next =>
    exact ⟨Nat.le_refl _, Nat.le_refl _, fun key _ => rfl, fun key value h => ⟨h, id⟩,
      fun bound hbound _ => hbound⟩
  next hstart =>
    refine ⟨Nat.le_max_left _ _, List.length_filter_le .., fun key hkey => ?_,
      fun key value h => ?_, fun bound hbound hkeys => ?_⟩
    · rw [SortedMap.get?_filter]
      cases pending.get? key with
      | none => rfl
      | some => simp [Option.filter, hkey]
    · rw [SortedMap.get?_filter, Option.filter_eq_some_iff] at h
      obtain ⟨hget, hpred⟩ := h
      refine ⟨hget, fun hside => ?_⟩
      have hpos := hpositive key value hget
      rcases hside with hkept | hlt
      · exact Or.inl hkept
      · simp only [Bool.or_eq_true, decide_eq_true_eq] at hpred
        rcases hpred with hkept | _
        · exact Or.inl hkept
        · exact Or.inr (Nat.max_lt.mpr ⟨hlt, by omega⟩)
    · rcases retainedTailStart_mem kept _ none hstart with hnone | hmem
      · cases hnone
      · obtain ⟨⟨key, value⟩, hitem, rfl⟩ := List.mem_map.mp (List.mem_reverse.mp hmem)
        have hlt := hkeys key value (SortedMap.get?_of_mem hitem)
        exact Nat.max_lt.mpr ⟨hbound, by dsimp only; omega⟩

inductive Inserted (sequence : Nat) (transition : SelectionTransition δ)
    (state : SelectionTransitionState δ) : SelectionTransitionState δ → Prop
  | refused : state.accepts sequence = false → state.overloads sequence transition = false →
      Inserted sequence transition state state
  | added : state.accepts sequence = true → state.overloads sequence transition = false →
      Inserted sequence transition state
        { state with pending := state.pending.put sequence transition }
  | shed {pending : SortedMap Nat (SelectionTransition δ)} {through : Nat} :
      state.overloads sequence transition = true →
      (∀ skipped, state.skippedThrough = some skipped → skipped ≤ through) →
      Inserted sequence transition state
        { state with pending, skippedThrough := some through, resetDeferralBeforeNext := true }

theorem exists_unprotected {kept : Option Nat} {keys : List Nat} (hnodup : keys.Nodup)
    (hlength : 1 < keys.length) : ∃ key, key ∈ keys ∧ some key ≠ kept := by
  match keys, hnodup, hlength with
  | first :: second :: rest, hnodup, _ =>
    by_cases hfirst : some first = kept
    · refine ⟨second, by simp, fun hsecond => ?_⟩
      have hsame : first = second := Option.some.inj (hfirst.trans hsecond.symm)
      exact (List.nodup_cons.mp hnodup).1 (hsame ▸ List.mem_cons_self)
    · exact ⟨first, List.mem_cons_self, hfirst⟩

variable {key : Nat} {value : SelectionTransition δ}

theorem find_unprotected_lt {kept : Option Nat} {evicted : Nat}
    (h : (pending.toList.map Prod.fst).find? (fun key => some key ≠ kept) = some evicted)
    (hkey : pending.get? key = some value) (hother : key ≠ evicted) :
    some key = kept ∨ evicted < key := by
  by_cases hkept : some key = kept
  · exact Or.inl hkept
  refine Or.inr ?_
  obtain ⟨_, _, _, hsplit, hbefore⟩ := List.find?_eq_some_iff_append.mp h
  have hsorted := pending.sorted
  have hmem : key ∈ pending.toList.map Prod.fst :=
    List.mem_map.mpr ⟨(key, value), SortedMap.get?_mem hkey, rfl⟩
  rw [hsplit] at hsorted hmem
  rcases List.mem_append.mp hmem with hmem | hmem
  · have hskip := hbefore key hmem
    simp [hkept] at hskip
  · rcases List.mem_cons.mp hmem with heq | hmem
    · exact absurd heq hother
    · exact (List.pairwise_cons.mp (List.pairwise_append.mp hsorted).2.1).1 key hmem

theorem Sound.put (h : state.Sound) (hbound : sequence < 2 ^ 64)
    (haccepts : state.accepts sequence = true) {key : Nat} {value : SelectionTransition δ}
    (hkey : (state.pending.put sequence transition).get? key = some value) :
    state.latest < key ∧ key < 2 ^ 64 ∧ ∀ skipped, state.skippedThrough = some skipped →
      (∃ inFlight, state.inFlight = some inFlight ∧ inFlight.sequence = key) ∨ skipped < key := by
  obtain ⟨_, hlatest, hskipped, _⟩ := h.accepts_iff.mp haccepts
  rw [SortedMap.get?_put] at hkey
  split at hkey
  next heq =>
    subst heq
    exact ⟨hlatest, hbound, fun skipped hsome => Or.inr (hskipped skipped hsome)⟩
  next =>
    obtain ⟨hahead, hlt⟩ := h.ahead key value hkey
    exact ⟨hahead, hlt, fun skipped hsome => (h.behind skipped hsome).2.2.2 key value hkey⟩

variable {inFlight : SelectionTransitionInFlight}

theorem Sound.put_flying (h : state.Sound) (haccepts : state.accepts sequence = true)
    (hflight : state.inFlight = some inFlight) :
    (state.pending.put sequence transition).get? inFlight.sequence =
      state.pending.get? inFlight.sequence := by
  obtain ⟨_, _, _, hnone⟩ := h.accepts_iff.mp haccepts
  obtain ⟨_, _, hget⟩ := h.flying inFlight hflight
  rw [SortedMap.get?_put, if_neg]
  intro heq
  rw [heq, hnone] at hget
  cases hget

def boundary (earlier : Option Nat) (skipped : Nat) : Nat :=
  match earlier with
  | none => skipped
  | some earlier => max earlier skipped

theorem le_boundary (earlier : Option Nat) (skipped : Nat) : skipped ≤ boundary earlier skipped := by
  unfold boundary
  split
  · exact Nat.le_refl _
  · exact Nat.le_max_right _ _

variable {bound skipped : Nat} {earlier : Option Nat}

theorem earlier_le_boundary (h : earlier = some bound) : bound ≤ boundary earlier skipped := by
  rw [h]
  exact Nat.le_max_left _ _

theorem boundary_lt (hskipped : skipped < bound)
    (hearlier : ∀ before, earlier = some before → before < bound) :
    boundary earlier skipped < bound := by
  unfold boundary
  split
  · exact hskipped
  · exact Nat.max_lt.mpr ⟨hearlier _ rfl, hskipped⟩

section Shedding

variable {evicted : Nat} {outcome : Nat × SortedMap Nat (SelectionTransition δ)}

theorem Sound.shed (h : state.Sound) (hbound : sequence < 2 ^ 64)
    (haccepts : state.accepts sequence = true)
    (hevicted : ((state.pending.put sequence transition).toList.map Prod.fst).find? (fun key =>
      some key ≠ state.inFlight.map SelectionTransitionInFlight.sequence) = some evicted)
    (hspec : Compacted (state.inFlight.map SelectionTransitionInFlight.sequence) evicted
      ((state.pending.put sequence transition).erase evicted) outcome) :
    Sound { state with
        pending := outcome.2
        skippedThrough := some (boundary state.skippedThrough outcome.1)
        resetDeferralBeforeNext := true } ∧
      ∀ inFlight, state.inFlight = some inFlight →
        outcome.2.get? inFlight.sequence = state.pending.get? inFlight.sequence := by
  have hunprotected : some evicted ≠ state.inFlight.map SelectionTransitionInFlight.sequence := by
    simpa using List.find?_some hevicted
  obtain ⟨⟨_, evictedValue⟩, hmem, hother⟩ :=
    List.mem_map.mp (List.mem_of_find?_eq_some hevicted)
  have hgone : (state.pending.put sequence transition).get? evicted = some evictedValue :=
    hother ▸ SortedMap.get?_of_mem hmem
  obtain ⟨hlatest, hlt, _⟩ := h.put hbound haccepts hgone
  have hthrough := Nat.le_trans hspec.evicted_le (le_boundary state.skippedThrough outcome.1)
  have hflying (inFlight : SelectionTransitionInFlight) (hflight : state.inFlight = some inFlight) :
      inFlight.sequence < evicted := by
    have hnext := (h.flying inFlight hflight).1
    have hne : evicted ≠ inFlight.sequence := by
      rintro rfl
      rw [hflight] at hunprotected
      exact hunprotected rfl
    omega
  have hleft (key : Nat) (value : SelectionTransition δ) (hkey : outcome.2.get? key = some value) :
      (state.pending.put sequence transition).get? key = some value ∧
        (some key = state.inFlight.map SelectionTransitionInFlight.sequence ∨ outcome.1 < key) := by
    obtain ⟨hget, hside⟩ := hspec.left key value hkey
    rw [SortedMap.get?_erase] at hget
    split at hget
    next => cases hget
    next hother => exact ⟨hget, hside (find_unprotected_lt hevicted hget hother)⟩
  have hkept (inFlight : SelectionTransitionInFlight) (hflight : state.inFlight = some inFlight) :
      outcome.2.get? inFlight.sequence = state.pending.get? inFlight.sequence := by
    have hspared := hspec.spared inFlight.sequence (by rw [hflight]; rfl)
    rw [SortedMap.get?_erase, if_neg (Nat.ne_of_lt (hflying inFlight hflight))] at hspared
    exact hspared.trans (h.put_flying haccepts hflight)
  refine ⟨⟨h.noRetry, ?_, h.latestBound, fun key value hkey => ?_, fun inFlight hflight => ?_,
    fun skipped hsome => ?_⟩, hkept⟩
  · have hlength := SortedMap.length_erase hgone
    have hput := SortedMap.length_put_le state.pending sequence transition
    have hbounded := h.bounded
    have hle := hspec.length_le
    dsimp only at hlength ⊢
    omega
  · obtain ⟨hahead, hkeyBound, _⟩ := h.put hbound haccepts (hleft key value hkey).1
    exact ⟨hahead, hkeyBound⟩
  · obtain ⟨hnext, diagnostic, hget⟩ := h.flying inFlight hflight
    exact ⟨hnext, diagnostic, (hkept inFlight hflight).trans hget⟩
  · cases hsome
    refine ⟨Nat.lt_of_lt_of_le hlatest hthrough, ?_, fun inFlight hflight =>
      Nat.lt_of_lt_of_le (hflying inFlight hflight) hthrough, fun key value hkey => ?_⟩
    · refine boundary_lt (hspec.bounded _ hlt fun key value hkey => ?_) fun before hbefore =>
        (h.behind before hbefore).2.1
      rw [SortedMap.get?_erase] at hkey
      split at hkey
      · cases hkey
      · exact (h.put hbound haccepts hkey).2.1
    · obtain ⟨hget, hside⟩ := hleft key value hkey
      obtain ⟨_, _, hearlier⟩ := h.put hbound haccepts hget
      rcases hside with hprotected | hafter
      · obtain ⟨inFlight, hflight, hsame⟩ := Option.map_eq_some_iff.mp hprotected.symm
        exact Or.inl ⟨inFlight, hflight, hsame⟩
      · by_cases hflight : ∃ inFlight, state.inFlight = some inFlight ∧ inFlight.sequence = key
        · exact Or.inl hflight
        · refine Or.inr (boundary_lt hafter fun before hbefore => ?_)
          exact (hearlier before hbefore).resolve_left hflight

end Shedding

theorem Sound.insert (h : state.Sound) (hbound : sequence < 2 ^ 64) :
    Inserted sequence transition state (state.insert sequence transition) ∧
      (state.insert sequence transition).Sound ∧
      ∀ inFlight, state.inFlight = some inFlight →
        (state.insert sequence transition).pending.get? inFlight.sequence =
          state.pending.get? inFlight.sequence := by
  unfold SelectionTransitionState.insert
  cases haccepts : state.accepts sequence with
  | false =>
    have hoverloads : state.overloads sequence transition = false := by
      unfold overloads
      rw [haccepts, Bool.false_and]
    rw [if_neg Bool.false_ne_true]
    exact ⟨.refused haccepts hoverloads, h, fun _ _ => rfl⟩
  | true =>
    rw [if_pos rfl]
    dsimp only
    have hoverloads : state.overloads sequence transition = decide (SELECTION_TRANSITION_CAPACITY <
        (state.pending.put sequence transition).toList.length) := by
      unfold overloads
      rw [haccepts, Bool.true_and]
    by_cases hlength : SELECTION_TRANSITION_CAPACITY <
        (state.pending.put sequence transition).toList.length
    · rw [if_pos hlength]
      rw [decide_eq_true hlength] at hoverloads
      unfold shedOverload
      have hprotected : ({ state with pending := state.pending.put sequence transition } :
          SelectionTransitionState δ).protectedSequence =
            state.inFlight.map SelectionTransitionInFlight.sequence := h.protectedSequence
      rw [hprotected]
      have hnodup : ((state.pending.put sequence transition).toList.map Prod.fst).Nodup :=
        (state.pending.put sequence transition).sorted.imp fun hlt => Nat.ne_of_lt hlt
      have hmany : 1 < ((state.pending.put sequence transition).toList.map Prod.fst).length := by
        rw [List.length_map]
        exact Nat.lt_trans (by decide) hlength
      obtain ⟨spare, hspare, hunprotected⟩ := @exists_unprotected
        (state.inFlight.map SelectionTransitionInFlight.sequence) _ hnodup hmany
      split
      next hnone =>
        have hfalse := List.find?_eq_none.mp hnone spare hspare
        simp [hunprotected] at hfalse
      next evicted hevicted =>
        have hpositive : ∀ key value,
            ((state.pending.put sequence transition).erase evicted).get? key = some value →
              0 < key := by
          intro key value hkey
          rw [SortedMap.get?_erase] at hkey
          split at hkey
          · cases hkey
          · exact Nat.lt_of_le_of_lt (Nat.zero_le _) (h.put hbound haccepts hkey).1
        have hspec := compact_spec (state.inFlight.map SelectionTransitionInFlight.sequence) evicted
          hpositive
        obtain ⟨hsound, hkept⟩ := h.shed hbound haccepts hevicted hspec
        exact ⟨.shed hoverloads fun skipped hsome => earlier_le_boundary hsome, hsound, hkept⟩
    · rw [if_neg hlength]
      rw [decide_eq_false hlength] at hoverloads
      refine ⟨.added haccepts hoverloads, ?_, fun inFlight hflight => h.put_flying haccepts hflight⟩
      refine ⟨h.noRetry, Nat.le_of_not_lt hlength, h.latestBound, fun key value hkey => ?_,
        fun inFlight hflight => ?_, fun skipped hsome => ?_⟩
      · obtain ⟨hahead, hlt, _⟩ := h.put hbound haccepts hkey
        exact ⟨hahead, hlt⟩
      · obtain ⟨hnext, diagnostic, hget⟩ := h.flying inFlight hflight
        exact ⟨hnext, diagnostic, (h.put_flying haccepts hflight).trans hget⟩
      · obtain ⟨hlatest, hlt, hflying, _⟩ := h.behind skipped hsome
        exact ⟨hlatest, hlt, hflying, fun key value hkey =>
          (h.put hbound haccepts hkey).2.2 skipped hsome⟩

theorem Sound.expected (h : state.Sound) (hkey : state.pending.get? key = some value) :
    state.expectedSequence = state.latest + 1 := by
  obtain ⟨hahead, _⟩ := h.ahead key value hkey
  unfold expectedSequence nextExpectedSequence latest at *
  rw [h.noRetry]
  dsimp only
  cases hlatest : state.latestSequence with
  | none => rfl
  | some =>
    rw [hlatest] at hahead
    simp only [Option.getD_some] at hahead ⊢
    omega

/-- What one pass over the queue does, where no report is in flight. -/
inductive Acted (state : SelectionTransitionState δ) :
    Option (SelectionTransitionAction δ) × SelectionTransitionState δ → Prop
  | idle : state.hasReadyTransition = false → Acted state (none, state)
  | resolved {sequence : Nat} :
      state.pending.toList.head? = some (sequence, .resolved) → sequence = state.latest + 1 →
      Acted state (some .proceed, { state with
        resetDeferralBeforeNext := false
        pending := state.pending.erase sequence
        latestSequence := some sequence
        deferral := none })
  | repeated {sequence : Nat} {diagnostic : δ} :
      state.pending.toList.head? = some (sequence, .deferred diagnostic) →
      sequence = state.latest + 1 → state.resetDeferralBeforeNext = false →
      state.deferral = some diagnostic →
      Acted state (some .proceed, { state with
        resetDeferralBeforeNext := false
        pending := state.pending.erase sequence
        latestSequence := some sequence })
  | report {sequence : Nat} {diagnostic : δ} :
      state.pending.toList.head? = some (sequence, .deferred diagnostic) →
      sequence = state.latest + 1 →
      ¬ (state.resetDeferralBeforeNext = false ∧ state.deferral = some diagnostic) →
      Acted state (some (.report sequence diagnostic), { state with
        resetDeferralBeforeNext := false
        inFlight := some ⟨sequence, state.resetDeferralBeforeNext⟩ })

theorem get?_of_head? {sequence : Nat} {transition : SelectionTransition δ}
    (h : state.pending.toList.head? = some (sequence, transition)) :
    state.pending.get? sequence = some transition :=
  SortedMap.get?_of_mem (List.mem_of_mem_head? h)

theorem Sound.nextAction [DecidableEq δ] (h : state.Sound) :
    Acted state.advanceOverflowSkip state.nextAction := by
  unfold SelectionTransitionState.nextAction
  have hsound := h.advance
  generalize state.advanceOverflowSkip = next at hsound
  dsimp only
  split
  next hempty =>
    refine .idle ?_
    unfold hasReadyTransition
    rw [hempty]
    rfl
  next sequence transition hhead =>
    have hexpected := hsound.expected (get?_of_head? hhead)
    split
    next hother =>
      refine .idle ?_
      unfold hasReadyTransition
      rw [hhead]
      exact decide_eq_false hother
    next hready =>
      have hnext : sequence = next.latest + 1 := (not_not.mp hready).trans hexpected
      unfold actOn
      rw [hsound.noRetry]
      cases transition with
      | resolved =>
        have hacted := Acted.resolved hhead hnext
        rw [hsound.noRetry] at hacted
        exact hacted
      | deferred =>
        dsimp only
        split
        next hrepeated =>
          obtain ⟨hreset, hsame⟩ := Bool.and_eq_true_iff.mp hrepeated
          have hacted := Acted.repeated hhead hnext (Bool.not_eq_true' _ ▸ hreset)
            (of_decide_eq_true hsame)
          rw [hsound.noRetry] at hacted
          exact hacted
        next hreport =>
          have hacted := Acted.report hhead hnext fun hboth => hreport (by simp [hboth])
          rw [hsound.noRetry] at hacted
          exact hacted

theorem Sound.taken (h : state.Sound) (hflight : state.inFlight = none)
    (hskipped : state.skippedThrough = none) (hnext : sequence = state.latest + 1)
    (hbound : sequence < 2 ^ 64) (deferral : Option δ) :
    Sound { state with
      resetDeferralBeforeNext := false
      pending := state.pending.erase sequence
      latestSequence := some sequence
      deferral } := by
  refine ⟨h.noRetry, Nat.le_trans (SortedMap.length_erase_le ..) h.bounded, hbound,
    fun key value hkey => ?_, fun inFlight hsome => ?_, fun skipped hsome => ?_⟩
  · rw [SortedMap.get?_erase] at hkey
    split at hkey
    next => cases hkey
    next =>
      obtain ⟨hahead, hlt⟩ := h.ahead key value hkey
      refine ⟨?_, hlt⟩
      unfold latest at hahead hnext ⊢
      dsimp only [Option.getD_some]
      omega
  · exact absurd (hsome.symm.trans hflight) (Option.some_ne_none _)
  · exact absurd (hsome.symm.trans hskipped) (Option.some_ne_none _)

theorem Sound.commit (h : state.Sound) (hflight : state.inFlight = some inFlight) :
    ∃ diagnostic, state.pending.get? inFlight.sequence = some (.deferred diagnostic) ∧
      state.commitReport inFlight.sequence = some { state with
        inFlight := none
        pending := state.pending.erase inFlight.sequence
        latestSequence := some inFlight.sequence
        deferral := some diagnostic } ∧
      Sound { state with
        inFlight := none
        pending := state.pending.erase inFlight.sequence
        latestSequence := some inFlight.sequence
        deferral := some diagnostic } := by
  obtain ⟨hnext, diagnostic, hget⟩ := h.flying inFlight hflight
  refine ⟨diagnostic, hget, ?_, h.noRetry, ?_, ?_, fun key value hkey => ?_, fun other hsome => ?_,
    fun skipped hsome => ?_⟩
  · unfold commitReport
    rw [hget]
    simp only [hflight]
    rfl
  · exact Nat.le_trans (SortedMap.length_erase_le ..) h.bounded
  · exact (h.ahead _ _ hget).2
  · rw [SortedMap.get?_erase] at hkey
    split at hkey
    next => cases hkey
    next =>
      obtain ⟨hahead, hlt⟩ := h.ahead key value hkey
      refine ⟨?_, hlt⟩
      unfold latest at hahead hnext ⊢
      dsimp only [Option.getD_some]
      omega
  · cases hsome
  · obtain ⟨_, hlt, hflying, hkeys⟩ := h.behind skipped hsome
    refine ⟨hflying inFlight hflight, hlt, nofun, fun key value hkey => ?_⟩
    rw [SortedMap.get?_erase] at hkey
    split at hkey
    next => cases hkey
    next hother =>
      rcases hkeys key value hkey with ⟨other, hsome', hsame⟩ | hafter
      · cases hflight.symm.trans hsome'
        exact absurd hsame.symm hother
      · exact Or.inr hafter

theorem max?_cases {first second : Option Nat} {through : Nat}
    (h : abandonReporterBacklog.max? first second = some through) :
    first = some through ∨ second = some through := by
  unfold abandonReporterBacklog.max? at h
  split at h
  next a b =>
    rcases Nat.le_total a b with hle | hle
    · rw [Nat.max_eq_right hle] at h
      exact Or.inr h
    · rw [Nat.max_eq_left hle] at h
      exact Or.inl h
  · exact Or.inl h
  · exact Or.inr h

theorem Sound.abandoned_latest (h : state.Sound) :
    state.abandonReporterBacklog.latestSequence = state.latestSequence ∨
      ∃ through, state.abandonReporterBacklog.latestSequence = some through ∧
        state.latest < through ∧ through < 2 ^ 64 := by
  unfold abandonReporterBacklog
  dsimp only
  split
  next hadvances =>
    obtain ⟨through, hthrough, _⟩ := (Option.any_eq_true _ _).mp hadvances
    refine Or.inr ⟨through, hthrough, ?_⟩
    rcases max?_cases hthrough with hlast | hskipped
    · obtain ⟨⟨key, value⟩, hitem, rfl⟩ := Option.map_eq_some_iff.mp hlast
      exact h.ahead key value (SortedMap.get?_of_mem (List.mem_of_getLast? hitem))
    · obtain ⟨hlatest, hlt, _⟩ := h.behind through hskipped
      exact ⟨hlatest, hlt⟩
  next => exact Or.inl rfl

theorem Sound.abandon (h : state.Sound) : state.abandonReporterBacklog.Sound where
  noRetry := rfl
  bounded := Nat.zero_le _
  latestBound := by
    unfold latest
    rcases h.abandoned_latest with hsame | ⟨_, hthrough, _, hlt⟩
    · rw [hsame]
      exact h.latestBound
    · rw [hthrough]
      exact hlt
  ahead _ _ hkey := absurd hkey.symm (Option.some_ne_none _)
  flying _ hsome := absurd hsome.symm (Option.some_ne_none _)
  behind _ hsome := absurd hsome.symm (Option.some_ne_none _)

end SelectionTransitionState

end Nexus.Selection
