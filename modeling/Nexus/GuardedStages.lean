import Mathlib.Data.List.Basic

namespace Nexus

abbrev Stage (σ μ : Type) := μ → σ → Option μ × σ

inductive StagesEnd (μ : Type) where
  | stopped
  | kept
  | passed (message : μ)

variable {σ μ : Type} {guard : σ → Bool} {stages : List (Stage σ μ)} {message result : μ}
  {state after : σ}

/-- The guard is asked after each stage, and before the answer of the stage counts. -/
def runStages (guard : σ → Bool) : List (Stage σ μ) → μ → σ → StagesEnd μ × σ
  | [], message, state => (.passed message, state)
  | stage :: stages, message, state =>
    let (answer, state) := stage message state
    if guard state then
      match answer with
      | none => (.kept, state)
      | some message => runStages guard stages message state
    else (.stopped, state)

/-- The stages pass a message on one after the other, with the guard open after each. -/
inductive PassesStages (guard : σ → Bool) : List (Stage σ μ) → μ → σ → μ → σ → Prop where
  | nil (message : μ) (state : σ) : PassesStages guard [] message state message state
  | cons {stage : Stage σ μ} {stages : List (Stage σ μ)} {message next result : μ}
      {state between after : σ} :
      stage message state = (some next, between) → guard between = true →
      PassesStages guard stages next between result after →
      PassesStages guard (stage :: stages) message state result after

def EndsAt (guard : σ → Bool) (stages : List (Stage σ μ)) (message : μ) (state : σ)
    (answer : Option μ) (after : σ) : Prop :=
  ∃ before stage rest next between, stages = before ++ stage :: rest ∧
    PassesStages guard before message state next between ∧ stage next between = (answer, after)

theorem EndsAt.cons {stage : Stage σ μ} {next : μ} {between : σ} {answer : Option μ}
    (hstage : stage message state = (some next, between)) (hopen : guard between = true)
    (h : EndsAt guard stages next between answer after) :
    EndsAt guard (stage :: stages) message state answer after := by
  obtain ⟨before, last, rest, previous, reached, rfl, hpasses, hlast⟩ := h
  exact ⟨stage :: before, last, rest, previous, reached, rfl, .cons hstage hopen hpasses, hlast⟩

theorem runStages_cons {stage : Stage σ μ} {answer : Option μ} {between : σ}
    (hstage : stage message state = (answer, between)) :
    runStages guard (stage :: stages) message state =
      if guard between then
        match answer with
        | none => (.kept, between)
        | some next => runStages guard stages next between
      else (.stopped, between) := by
  unfold runStages
  rw [hstage]
  cases stages <;> rfl

theorem PassesStages.run (h : PassesStages guard stages message state result after)
    (rest : List (Stage σ μ)) :
    runStages guard (stages ++ rest) message state = runStages guard rest result after := by
  induction h with
  | nil => rfl
  | cons hstage hopen _ ih =>
    rw [List.cons_append, runStages_cons hstage, if_pos hopen]
    exact ih

theorem EndsAt.run {answer : Option μ} (h : EndsAt guard stages message state answer after)
    (hends : answer = none ∨ guard after = false) :
    runStages guard stages message state =
      (if guard after then .kept else .stopped, after) := by
  obtain ⟨_, _, _, _, _, rfl, hpasses, hlast⟩ := h
  rw [hpasses.run, runStages_cons hlast]
  cases hopen : guard after with
  | false => rfl
  | true =>
    rcases hends with rfl | hshut
    · rfl
    · rw [hshut] at hopen
      cases hopen

theorem stages_end (guard : σ → Bool) (stages : List (Stage σ μ)) (message : μ) (state : σ) :
    (∃ after, EndsAt guard stages message state none after ∧ guard after = true) ∨
    (∃ answer after, EndsAt guard stages message state answer after ∧ guard after = false) ∨
    ∃ result after, PassesStages guard stages message state result after := by
  induction stages generalizing message state with
  | nil => exact .inr (.inr ⟨message, state, .nil message state⟩)
  | cons stage stages ih =>
    cases hstage : stage message state with
    | mk answer between =>
    have hends : EndsAt guard (stage :: stages) message state answer between :=
      ⟨[], stage, stages, message, state, rfl, .nil message state, hstage⟩
    cases hopen : guard between with
    | false => exact .inr (.inl ⟨answer, between, hends, hopen⟩)
    | true =>
      cases answer with
      | none => exact .inl ⟨between, hends, hopen⟩
      | some next =>
        rcases ih next between with ⟨after, h, hkept⟩ | ⟨answer, after, h, hshut⟩ |
          ⟨result, after, h⟩
        · exact .inl ⟨after, h.cons hstage hopen, hkept⟩
        · exact .inr (.inl ⟨answer, after, h.cons hstage hopen, hshut⟩)
        · exact .inr (.inr ⟨result, after, .cons hstage hopen h⟩)

end Nexus
