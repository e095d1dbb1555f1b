import Mathlib.Data.Option.Basic
import Mathlib.Order.Lattice

namespace Nexus.StepRuns

/-! A system that takes one step after another. `step` is `none` where the step is not possible. -/

variable {σ α : Type} {step : σ → α → Option σ}

def runSteps (step : σ → α → Option σ) : σ → List α → Option σ
  | state, [] => some state
  | state, action :: actions => (step state action).bind fun next => runSteps step next actions

variable {state final : σ} {actions : List α}

theorem runSteps_cons {action : α} :
    runSteps step state (action :: actions) = some final ↔
      ∃ next, step state action = some next ∧ runSteps step next actions = some final :=
  Option.bind_eq_some_iff

theorem runSteps_append {first second : List α} :
    runSteps step state (first ++ second) = some final ↔
      ∃ middle, runSteps step state first = some middle ∧
        runSteps step middle second = some final := by
  induction first generalizing state with
  | nil => exact ⟨fun h => ⟨state, rfl, h⟩, fun ⟨_, hfirst, h⟩ => Option.some.inj hfirst ▸ h⟩
  | cons _ _ ih =>
    rw [List.cons_append, runSteps_cons]
    constructor
    · rintro ⟨next, hstep, hrun⟩
      obtain ⟨middle, hfirst, hsecond⟩ := ih.mp hrun
      exact ⟨middle, runSteps_cons.mpr ⟨next, hstep, hfirst⟩, hsecond⟩
    · rintro ⟨middle, hfirst, hsecond⟩
      obtain ⟨next, hstep, hrun⟩ := runSteps_cons.mp hfirst
      exact ⟨next, hstep, ih.mpr ⟨middle, hrun, hsecond⟩⟩

theorem runSteps_invariant {P : σ → Prop}
    (h : ∀ state action next, step state action = some next → P state → P next)
    (hrun : runSteps step state actions = some final) (hstart : P state) : P final := by
  induction actions generalizing state with
  | nil => exact Option.some.inj hrun ▸ hstart
  | cons action _ ih =>
    obtain ⟨next, hstep, hrest⟩ := runSteps_cons.mp hrun
    exact ih hrest (h state action next hstep hstart)

def EveryStep (step : σ → α → Option σ) (P : σ → α → Prop) : σ → List α → Prop
  | _, [] => True
  | state, action :: actions =>
    P state action ∧ ∀ next, step state action = some next → EveryStep step P next actions

variable {P : σ → α → Prop}

theorem everyStep_cons {action : α} :
    EveryStep step P state (action :: actions) ↔
      P state action ∧ ∀ next, step state action = some next → EveryStep step P next actions :=
  Iff.rfl

instance decidableEveryStep {P : σ → α → Prop} [∀ state action, Decidable (P state action)] :
    ∀ state actions, Decidable (EveryStep step P state actions)
  | _, [] => isTrue trivial
  | state, action :: actions =>
    match h : step state action with
    | none => decidable_of_iff (P state action)
        ⟨fun hstep => ⟨hstep, fun next hnext => by rw [h] at hnext; cases hnext⟩, And.left⟩
    | some next =>
      have := decidableEveryStep (P := P) next actions
      decidable_of_iff (P state action ∧ EveryStep step P next actions)
        ⟨fun hstep => ⟨hstep.1, fun other hother => by
          rw [h] at hother
          exact Option.some.inj hother ▸ hstep.2⟩, fun hstep => ⟨hstep.1, hstep.2 next h⟩⟩

theorem everyStep_of_forall (h : ∀ state, ∀ action ∈ actions, P state action) :
    EveryStep step P state actions := by
  induction actions generalizing state with
  | nil => trivial
  | cons action _ ih =>
    refine ⟨h state action List.mem_cons_self, fun next _ => ?_⟩
    exact ih fun other action hmem => h other action (List.mem_cons_of_mem _ hmem)

theorem everyStep_append {first second : List α} :
    EveryStep step P state (first ++ second) ↔ EveryStep step P state first ∧
      ∀ middle, runSteps step state first = some middle → EveryStep step P middle second := by
  induction first generalizing state with
  | nil =>
    refine ⟨fun h => ⟨trivial, fun middle hrun => ?_⟩, fun h => h.2 state rfl⟩
    exact Option.some.inj hrun ▸ h
  | cons _ _ ih =>
    constructor
    · rintro ⟨haction, hrest⟩
      refine ⟨⟨haction, fun next hstep => (ih.mp (hrest next hstep)).1⟩, fun middle hrun => ?_⟩
      obtain ⟨next, hstep, hfirst⟩ := runSteps_cons.mp hrun
      exact (ih.mp (hrest next hstep)).2 middle hfirst
    · rintro ⟨⟨haction, hfirst⟩, hsecond⟩
      refine ⟨haction, fun next hstep => ih.mpr ⟨hfirst next hstep, fun middle hrun => ?_⟩⟩
      exact hsecond middle (runSteps_cons.mpr ⟨next, hstep, hrun⟩)

theorem everyStep_iff_split :
    EveryStep step P state actions ↔
      ∀ first action rest, actions = first ++ action :: rest → ∀ middle,
        runSteps step state first = some middle → P middle action := by
  induction actions generalizing state with
  | nil =>
    refine ⟨fun _ first action rest hsplit => ?_, fun _ => trivial⟩
    exact absurd hsplit.symm (List.append_ne_nil_of_right_ne_nil _ (List.cons_ne_nil _ _))
  | cons head actions ih =>
    constructor
    · intro hevery first action rest hsplit middle hfirst
      rw [hsplit, everyStep_append] at hevery
      exact (hevery.2 middle hfirst).1
    · intro h
      refine ⟨h [] head actions rfl state rfl, fun next hstep => ih.mpr ?_⟩
      intro first action rest hsplit middle hfirst
      refine h (head :: first) action rest (by rw [hsplit, List.cons_append]) middle ?_
      exact runSteps_cons.mpr ⟨next, hstep, hfirst⟩

theorem EveryStep.invariant {Q : σ → Prop}
    (h : ∀ state action next, step state action = some next → P state action → Q state → Q next)
    (hevery : EveryStep step P state actions) (hrun : runSteps step state actions = some final)
    (hstart : Q state) : Q final := by
  induction actions generalizing state with
  | nil => exact Option.some.inj hrun ▸ hstart
  | cons action _ ih =>
    obtain ⟨next, hstep, hrest⟩ := runSteps_cons.mp hrun
    exact ih (hevery.2 next hstep) hrest (h state action next hstep hevery.1 hstart)

end Nexus.StepRuns

namespace Nexus.FairRuns

/-! What a fair run without an end reaches: a measure that never grows and now and then falls. -/

/-- While `Busy` lasts, no step raises the measure, and some later step lowers it. -/
structure Progress (Busy Done : Nat → Prop) (measure : Nat → Nat) : Prop where
  step : ∀ n, Busy n → Done (n + 1) ∨ Busy (n + 1) ∧ measure (n + 1) ≤ measure n
  fair : ∀ n, Busy n → ∃ m, n ≤ m ∧
    (Busy m → Done (m + 1) ∨ Busy (m + 1) ∧ measure (m + 1) < measure m)

variable {Busy Done : Nat → Prop} {measure : Nat → Nat}

theorem Progress.stays (h : Progress Busy Done measure) {n m : Nat} (hle : n ≤ m) (hbusy : Busy n) :
    (∃ k, n ≤ k ∧ Done k) ∨ Busy m ∧ measure m ≤ measure n := by
  induction m, hle using Nat.le_induction with
  | base => exact Or.inr ⟨hbusy, Nat.le_refl _⟩
  | succ m hle ih =>
    rcases ih with hdone | ⟨hstill, hless⟩
    · exact Or.inl hdone
    · rcases h.step m hstill with hdone | ⟨hnext, hmore⟩
      · exact Or.inl ⟨m + 1, Nat.le_succ_of_le hle, hdone⟩
      · exact Or.inr ⟨hnext, Nat.le_trans hmore hless⟩

theorem Progress.eventually (h : Progress Busy Done measure) {n : Nat} (hbusy : Busy n) :
    ∃ m, n ≤ m ∧ Done m := by
  generalize hrest : measure n = rest
  induction rest using Nat.strongRecOn generalizing n with
  | ind rest ih =>
    obtain ⟨m, hle, hlower⟩ := h.fair n hbusy
    rcases h.stays hle hbusy with hdone | ⟨hstill, hless⟩
    · exact hdone
    · rcases hlower hstill with hdone | ⟨hnext, hfalls⟩
      · exact ⟨m + 1, Nat.le_succ_of_le hle, hdone⟩
      · have hsmaller : measure (m + 1) < rest := hrest ▸ Nat.lt_of_lt_of_le hfalls hless
        obtain ⟨k, hlater, hdone⟩ := ih _ hsmaller hnext rfl
        exact ⟨k, Nat.le_trans (Nat.le_succ_of_le hle) hlater, hdone⟩

end Nexus.FairRuns
