import Mathlib.Tactic.Ring
import Nexus.RenderStages

namespace Nexus.Render

inductive FailureCall where
  | permission (stage : RenderStage) (presentSequence : Nat)
  | recordFailure (stage : RenderStage) (presentSequence : Nat)
  | recordSuccess (stage : RenderStage)
  | resetStage (stage : RenderStage)
  | resetAll
  deriving DecidableEq

inductive FailureAnswer where
  | permission (permission : AttemptPermission)
  | action (action : FailureAction)
  | cleared (existed : Bool)
  | clearedAll
  deriving DecidableEq

namespace FailureCall

def Concerns (stage : RenderStage) : FailureCall → Prop
  | .permission called _ | .recordFailure called _ | .recordSuccess called | .resetStage called =>
    called = stage
  | .resetAll => True

def Clears (stage : RenderStage) : FailureCall → Prop
  | .permission _ _ | .recordFailure _ _ => False
  | .recordSuccess called | .resetStage called => called = stage
  | .resetAll => True

instance (stage : RenderStage) (call : FailureCall) : Decidable (call.Clears stage) := by
  cases call <;> unfold Clears <;> infer_instance

end FailureCall

def FailureAnswer.Counted : FailureAnswer → Prop
  | .action (.alreadySuppressed _) => False
  | .action _ => True
  | .permission _ | .cleared _ | .clearedAll => False

instance (answer : FailureAnswer) : Decidable answer.Counted := by
  unfold FailureAnswer.Counted
  split <;> infer_instance

def countNext (stage : RenderStage) (counted : Nat) : FailureCall × FailureAnswer → Nat
  | (.recordFailure failed _, answer) =>
    if failed = stage ∧ answer.Counted then counted + 1 else counted
  | (call, _) => if call.Clears stage then 0 else counted

/-- The failures of the stage since its last success or reset that were not answered
`alreadySuppressed`. -/
def countedFailures (stage : RenderStage) (history : List (FailureCall × FailureAnswer)) : Nat :=
  history.foldl (countNext stage) 0

/-- What the budget of the policy answers to the counted failure of that number. -/
def budgetAction (policy : FailurePolicy) (presentSequence number : Nat) : FailureAction :=
  if number = policy.failuresBeforeCooldown * policy.cooldownsBeforeDisable then
    .disabled policy.cooldownsBeforeDisable
  else if policy.failuresBeforeCooldown ∣ number then
    .cooldownStarted (saturating 64 (presentSequence + policy.cooldownSequences))
      (number / policy.failuresBeforeCooldown)
  else .continue (policy.failuresBeforeCooldown - number % policy.failuresBeforeCooldown)

theorem budgetAction_disabled {policy : FailurePolicy} {presentSequence number : Nat} :
    (∃ cooldowns, budgetAction policy presentSequence number = .disabled cooldowns) ↔
      number = policy.failuresBeforeCooldown * policy.cooldownsBeforeDisable := by
  unfold budgetAction
  split
  next h => exact ⟨fun _ => h, fun _ => ⟨_, rfl⟩⟩
  next h =>
    refine ⟨fun ⟨cooldowns, hanswer⟩ => ?_, fun hnumber => absurd hnumber h⟩
    split at hanswer
    · cases hanswer
    · cases hanswer

theorem budgetAction_cooldown {policy : FailurePolicy} {presentSequence number : Nat} :
    (∃ retryAtSequence cooldown,
      budgetAction policy presentSequence number = .cooldownStarted retryAtSequence cooldown) ↔
        policy.failuresBeforeCooldown ∣ number ∧
          number ≠ policy.failuresBeforeCooldown * policy.cooldownsBeforeDisable := by
  unfold budgetAction
  split
  next h =>
    refine ⟨fun ⟨retryAtSequence, cooldown, hanswer⟩ => ?_, fun hnumber => absurd h hnumber.2⟩
    cases hanswer
  next h =>
    split
    next hdvd => exact ⟨fun _ => ⟨hdvd, h⟩, fun _ => ⟨_, _, rfl⟩⟩
    next hdvd =>
      refine ⟨fun ⟨retryAtSequence, cooldown, hanswer⟩ => ?_, fun hnumber => absurd hnumber.1 hdvd⟩
      cases hanswer

namespace FailureController

def call : FailureCall → FailureController → FailureAnswer × FailureController
  | .permission stage presentSequence, controller =>
    let (permission, next) := controller.permission stage presentSequence
    (.permission permission, next)
  | .recordFailure stage presentSequence, controller =>
    let (action, next) := controller.recordFailure stage presentSequence
    (.action action, next)
  | .recordSuccess stage, controller =>
    let (existed, next) := controller.recordSuccess stage
    (.cleared existed, next)
  | .resetStage stage, controller =>
    let (existed, next) := controller.resetStage stage
    (.cleared existed, next)
  | .resetAll, controller => (.clearedAll, controller.resetAll)

def calls : List FailureCall → FailureController →
    List (FailureCall × FailureAnswer) × FailureController
  | [], controller => ([], controller)
  | first :: rest, controller =>
    let (answer, next) := controller.call first
    let (history, final) := calls rest next
    ((first, answer) :: history, final)

def record (stage : RenderStage) (controller : FailureController) : StageRecord :=
  (controller.records stage).getD .default

structure Budgeted (policy : FailurePolicy) (counted : Nat) (record : StageRecord) : Prop where
  counted_eq :
    counted = policy.failuresBeforeCooldown * record.cooldowns + record.consecutiveFailures
  consecutive_lt : record.consecutiveFailures < policy.failuresBeforeCooldown
  cooldowns_le : record.cooldowns ≤ policy.cooldownsBeforeDisable
  disabled_iff : record.status = .disabled ↔ record.cooldowns = policy.cooldownsBeforeDisable
  suppressed : record.status ≠ .healthy → record.consecutiveFailures = 0

variable {policy : FailurePolicy} {counted : Nat} {controller : FailureController}

theorem budgeted_default (policy : FailurePolicy) : Budgeted policy 0 .default := by
  have hfailures := policy.failures_pos
  have hcooldowns := policy.cooldowns_pos
  refine ⟨by simp [StageRecord.default], hfailures, Nat.zero_le _, ?_, fun _ => rfl⟩
  constructor
  · intro h
    cases h
  · intro h
    have hzero : 0 = policy.cooldownsBeforeDisable := h
    omega

variable {record : StageRecord}

theorem Budgeted.disabled_iff_counted (h : Budgeted policy counted record) :
    record.status = .disabled ↔
      counted = policy.failuresBeforeCooldown * policy.cooldownsBeforeDisable := by
  rw [h.disabled_iff, h.counted_eq]
  constructor
  · intro hcooldowns
    have hstatus := h.disabled_iff.mpr hcooldowns
    rw [h.suppressed (by rw [hstatus]; exact StageStatus.noConfusion), hcooldowns, Nat.add_zero]
  · intro hcounted
    by_contra hother
    have hle := h.cooldowns_le
    have hnext : record.cooldowns + 1 ≤ policy.cooldownsBeforeDisable := by omega
    have hmul := Nat.mul_le_mul_left policy.failuresBeforeCooldown hnext
    have hlt := h.consecutive_lt
    rw [Nat.mul_succ] at hmul
    omega

theorem Budgeted.retry {retryAtSequence : Nat} (h : Budgeted policy counted record)
    (hstatus : record.status = .coolingDown retryAtSequence) :
    Budgeted policy counted { record with status := .healthy, consecutiveFailures := 0 } := by
  have hzero := h.suppressed (by rw [hstatus]; exact StageStatus.noConfusion)
  refine ⟨by rw [h.counted_eq, hzero], policy.failures_pos, h.cooldowns_le, ?_, fun _ => rfl⟩
  rw [← h.disabled_iff, hstatus]
  exact ⟨fun hother => StageStatus.noConfusion hother, fun hother => StageStatus.noConfusion hother⟩

@[simp]
theorem record_withRecord (stage : RenderStage) (record : StageRecord)
    (controller : FailureController) :
    (controller.withRecord stage record).record stage = record := by
  simp [FailureController.record, withRecord]

variable {stage : RenderStage}

theorem records_withRecord {other : RenderStage} (hne : other ≠ stage) (record : StageRecord)
    (controller : FailureController) :
    (controller.withRecord stage record).records other = controller.records other := by
  simp [withRecord, hne]

theorem saturating_of_le {bits n : Nat} (h : n < 2 ^ bits) : saturating bits n = n := by
  unfold saturating
  omega

theorem countFailure_spec (presentSequence : Nat) (hpolicy : controller.policy = policy)
    (h : Budgeted policy counted record) (hhealthy : record.status = .healthy) :
    (controller.countFailure stage presentSequence record).1 =
        budgetAction policy presentSequence (counted + 1) ∧
      Budgeted policy (counted + 1)
        ((controller.countFailure stage presentSequence record).2.record stage) := by
  have hpos := policy.failures_pos
  have hless : record.cooldowns < policy.cooldownsBeforeDisable := by
    have hle := h.cooldowns_le
    have hne : record.cooldowns ≠ policy.cooldownsBeforeDisable := fun heq => by
      have hdisabled := h.disabled_iff.mpr heq
      rw [hhealthy] at hdisabled
      cases hdisabled
    omega
  have hfailures :
      saturating 32 (record.consecutiveFailures + 1) = record.consecutiveFailures + 1 :=
    saturating_of_le (by have := h.consecutive_lt; have := policy.failures_lt; omega)
  have hcooldowns : saturating 32 (record.cooldowns + 1) = record.cooldowns + 1 :=
    saturating_of_le (by have := policy.cooldowns_lt; omega)
  have hnumber : counted + 1 =
      policy.failuresBeforeCooldown * record.cooldowns + (record.consecutiveFailures + 1) := by
    rw [h.counted_eq, Nat.add_assoc]
  have hbound : policy.failuresBeforeCooldown * (record.cooldowns + 1) ≤
      policy.failuresBeforeCooldown * policy.cooldownsBeforeDisable :=
    Nat.mul_le_mul_left _ hless
  rw [Nat.mul_succ] at hbound
  unfold countFailure
  rw [hfailures, hcooldowns, hpolicy]
  dsimp only
  have hlt := h.consecutive_lt
  by_cases hmore : record.consecutiveFailures + 1 < policy.failuresBeforeCooldown
  · rw [if_pos hmore]
    have hmod : (counted + 1) % policy.failuresBeforeCooldown = record.consecutiveFailures + 1 := by
      rw [hnumber, Nat.mul_add_mod, Nat.mod_eq_of_lt hmore]
    have hdvd : ¬ policy.failuresBeforeCooldown ∣ counted + 1 := by
      intro hdvd
      have hzero := Nat.mod_eq_zero_of_dvd hdvd
      omega
    refine ⟨?_, ?_⟩
    · unfold budgetAction
      rw [if_neg (by omega), if_neg hdvd, hmod]
    · rw [record_withRecord]
      refine ⟨hnumber, hmore, h.cooldowns_le, h.disabled_iff, fun hother => absurd hhealthy hother⟩
  · rw [if_neg hmore]
    have hcycle : counted + 1 = policy.failuresBeforeCooldown * (record.cooldowns + 1) := by
      rw [hnumber, Nat.mul_succ]
      omega
    have hdvd : policy.failuresBeforeCooldown ∣ counted + 1 := ⟨_, hcycle⟩
    by_cases hlast : policy.cooldownsBeforeDisable ≤ record.cooldowns + 1
    · have heq : record.cooldowns + 1 = policy.cooldownsBeforeDisable := by omega
      rw [if_pos hlast, heq]
      refine ⟨?_, ?_⟩
      · unfold budgetAction
        rw [if_pos (by rw [hcycle, heq])]
      · rw [record_withRecord]
        refine ⟨by rw [hcycle, heq, Nat.add_zero], hpos, Nat.le_refl _, ?_, fun _ => rfl⟩
        exact ⟨fun _ => rfl, fun _ => rfl⟩
    · rw [if_neg hlast]
      have hother : counted + 1 ≠
          policy.failuresBeforeCooldown * policy.cooldownsBeforeDisable := by
        intro heq
        have hmul := Nat.eq_of_mul_eq_mul_left hpos (hcycle.symm.trans heq)
        omega
      refine ⟨?_, ?_⟩
      · unfold budgetAction
        rw [if_neg hother, if_pos hdvd, hcycle, Nat.mul_div_cancel_left _ hpos]
      · rw [record_withRecord]
        refine ⟨hcycle, hpos, hless, ?_, fun _ => rfl⟩
        constructor
        · intro hstatus
          cases hstatus
        · intro heq
          have hsame : record.cooldowns + 1 = policy.cooldownsBeforeDisable := heq
          omega

variable {presentSequence : Nat}

theorem suppressed_iff :
    controller.Suppressed stage presentSequence ↔
      (∃ retryAtSequence, (controller.record stage).status = .coolingDown retryAtSequence ∧
        presentSequence < retryAtSequence) ∨ (controller.record stage).status = .disabled := by
  unfold Suppressed state record StageRecord.state
  rcases ((controller.records stage).getD .default).status with _ | retryAtSequence | _
  · simp
  · simp
  · simp

theorem records_of_suppressed (controller : FailureController) (stage : RenderStage)
    (h : (controller.record stage).status ≠ .healthy) :
    controller.records stage = some (controller.record stage) := by
  unfold record at h ⊢
  rcases hrecord : controller.records stage with _ | record
  · rw [hrecord] at h
    exact absurd rfl h
  · rfl

theorem withRecord_self (controller : FailureController) (stage : RenderStage)
    (h : (controller.record stage).status ≠ .healthy) :
    controller.withRecord stage (controller.record stage) = controller := by
  unfold withRecord
  rw [← records_of_suppressed _ _ h, Function.update_eq_self]

theorem recordFailure_suppressed (h : controller.Suppressed stage presentSequence) :
    controller.recordFailure stage presentSequence =
      (.alreadySuppressed (controller.state stage), controller) := by
  rcases suppressed_iff.mp h with ⟨_, hstatus, hlt⟩ | hstatus
  · have hself := withRecord_self controller stage
      (by rw [hstatus]; exact StageStatus.noConfusion)
    unfold record at hstatus hself
    unfold recordFailure state
    simp only [hstatus, hlt, if_true, hself]
  · have hself := withRecord_self controller stage
      (by rw [hstatus]; exact StageStatus.noConfusion)
    unfold record at hstatus hself
    unfold recordFailure state
    simp only [hstatus, hself]

theorem permission_suppressed (h : controller.Suppressed stage presentSequence) :
    (controller.permission stage presentSequence).2 = controller := by
  rcases suppressed_iff.mp h with ⟨_, hstatus, _⟩ | hstatus
  · have hrecord := records_of_suppressed controller stage
      (by rw [hstatus]; exact StageStatus.noConfusion)
    unfold permission
    rw [hrecord]
    dsimp only
    rw [hstatus]
    dsimp only
    rw [if_neg (by omega)]
  · have hrecord := records_of_suppressed controller stage
      (by rw [hstatus]; exact StageStatus.noConfusion)
    unfold permission
    rw [hrecord]
    dsimp only
    rw [hstatus]

theorem recordFailure_spec (hpolicy : controller.policy = policy)
    (h : Budgeted policy counted (controller.record stage))
    (hnot : ¬ controller.Suppressed stage presentSequence) :
    (controller.recordFailure stage presentSequence).1 =
        budgetAction policy presentSequence (counted + 1) ∧
      Budgeted policy (counted + 1)
        ((controller.recordFailure stage presentSequence).2.record stage) := by
  rw [suppressed_iff] at hnot
  have hrecord : (controller.records stage).getD .default = controller.record stage := rfl
  unfold recordFailure
  dsimp only
  rw [hrecord]
  rcases hstatus : (controller.record stage).status with _ | retryAtSequence | _
  · exact countFailure_spec presentSequence hpolicy h hstatus
  · dsimp only
    rw [if_neg fun hlt => hnot (Or.inl ⟨retryAtSequence, hstatus, hlt⟩)]
    exact countFailure_spec presentSequence hpolicy (h.retry hstatus) rfl
  · exact absurd (Or.inr hstatus) hnot

theorem budgeted_permission (presentSequence : Nat)
    (h : Budgeted policy counted (controller.record stage)) :
    Budgeted policy counted ((controller.permission stage presentSequence).2.record stage) := by
  unfold permission
  rcases hrecord : controller.records stage with _ | record
  · exact h
  · have heq : controller.record stage = record := by simp [FailureController.record, hrecord]
    rcases hstatus : record.status with _ | _ | _
    · simp only [hstatus]
      exact h
    · simp only [hstatus]
      split
      · rw [heq] at h
        rw [record_withRecord]
        exact h.retry hstatus
      · exact h
    · simp only [hstatus]
      exact h

theorem policy_countFailure (stage : RenderStage) (presentSequence : Nat) (record : StageRecord)
    (controller : FailureController) :
    (controller.countFailure stage presentSequence record).2.policy = controller.policy := by
  unfold countFailure
  dsimp only
  split
  · rfl
  · split
    · rfl
    · rfl

theorem records_countFailure {other : RenderStage} (hne : other ≠ stage) (presentSequence : Nat)
    (record : StageRecord) (controller : FailureController) :
    (controller.countFailure stage presentSequence record).2.records other =
      controller.records other := by
  unfold countFailure
  dsimp only
  split
  · exact records_withRecord hne _ _
  · split
    · exact records_withRecord hne _ _
    · exact records_withRecord hne _ _

theorem policy_call (call : FailureCall) (controller : FailureController) :
    (controller.call call).2.policy = controller.policy := by
  cases call with
  | permission =>
    dsimp only [FailureController.call, permission]
    split
    · rfl
    · split
      · rfl
      · split
        · rfl
        · rfl
      · rfl
  | recordFailure =>
    dsimp only [FailureController.call, recordFailure]
    split
    · split
      · rfl
      · exact policy_countFailure ..
    · rfl
    · exact policy_countFailure ..
  | recordSuccess | resetStage | resetAll => rfl

variable {call : FailureCall}

theorem records_call (h : ¬ call.Concerns stage) (controller : FailureController) :
    (controller.call call).2.records stage = controller.records stage := by
  cases call with
  | permission called =>
    have hne : stage ≠ called := Ne.symm h
    dsimp only [FailureController.call, permission]
    split
    · rfl
    · split
      · rfl
      · split
        · exact records_withRecord hne _ _
        · rfl
      · rfl
  | recordFailure called =>
    have hne : stage ≠ called := Ne.symm h
    dsimp only [FailureController.call, recordFailure]
    split
    · split
      · exact records_withRecord hne _ _
      · exact records_countFailure hne ..
    · exact records_withRecord hne _ _
    · exact records_countFailure hne ..
  | recordSuccess called =>
    have hne : stage ≠ called := Ne.symm h
    simp [FailureController.call, recordSuccess, hne]
  | resetStage called =>
    have hne : stage ≠ called := Ne.symm h
    simp [FailureController.call, resetStage, recordSuccess, hne]
  | resetAll => exact absurd trivial h

theorem countNext_other (h : ¬ call.Concerns stage) (counted : Nat) (answer : FailureAnswer) :
    countNext stage counted (call, answer) = counted := by
  cases call with
  | permission => rfl
  | recordFailure => exact if_neg fun hsame => h hsame.1
  | recordSuccess | resetStage => exact if_neg h
  | resetAll => exact absurd trivial h

theorem budgeted_call (call : FailureCall) (hpolicy : controller.policy = policy)
    (h : Budgeted policy counted (controller.record stage)) :
    Budgeted policy (countNext stage counted (call, (controller.call call).1))
      ((controller.call call).2.record stage) := by
  by_cases hconcerns : call.Concerns stage
  · cases call with
    | permission _ presentSequence =>
      cases hconcerns
      exact budgeted_permission presentSequence h
    | recordFailure _ presentSequence =>
      cases hconcerns
      by_cases hsuppressed : controller.Suppressed stage presentSequence
      · have heq := recordFailure_suppressed hsuppressed
        dsimp only [FailureController.call, countNext]
        rw [heq, if_neg fun hcounted => hcounted.2]
        exact h
      · obtain ⟨hanswer, hnext⟩ := recordFailure_spec hpolicy h hsuppressed
        have hcounted : FailureAnswer.Counted
            (.action (controller.recordFailure stage presentSequence).1) := by
          rw [hanswer]
          unfold budgetAction
          split
          · trivial
          · split
            · trivial
            · trivial
        dsimp only [FailureController.call, countNext]
        rw [if_pos ⟨rfl, hcounted⟩]
        exact hnext
    | recordSuccess =>
      cases hconcerns
      have hcleared := budgeted_default policy
      simpa [FailureController.call, recordSuccess, countNext, FailureCall.Clears,
        FailureController.record] using hcleared
    | resetStage =>
      cases hconcerns
      have hcleared := budgeted_default policy
      simpa [FailureController.call, resetStage, recordSuccess, countNext, FailureCall.Clears,
        FailureController.record] using hcleared
    | resetAll =>
      have hcleared := budgeted_default policy
      simpa [FailureController.call, resetAll, countNext, FailureCall.Clears,
        FailureController.record] using hcleared
  · rw [countNext_other hconcerns]
    unfold record
    rw [records_call hconcerns]
    exact h

theorem budgeted_calls (stage : RenderStage) (calls : List FailureCall)
    (hpolicy : controller.policy = policy) (h : Budgeted policy counted (controller.record stage)) :
    (controller.calls calls).2.policy = policy ∧
      Budgeted policy ((controller.calls calls).1.foldl (countNext stage) counted)
        ((controller.calls calls).2.record stage) := by
  induction calls generalizing controller counted with
  | nil => exact ⟨hpolicy, h⟩
  | cons call _ ih =>
    have hnext := budgeted_call call hpolicy h
    exact ih ((policy_call call controller).trans hpolicy) hnext

theorem disabled_call (hkeeps : ¬ call.Clears stage)
    (h : (controller.record stage).status = .disabled) :
    (controller.call call).2.records stage = controller.records stage := by
  have hsuppressed : ∀ presentSequence, controller.Suppressed stage presentSequence :=
    fun presentSequence => suppressed_iff.mpr (Or.inr h)
  by_cases hconcerns : call.Concerns stage
  · cases call with
    | permission _ presentSequence =>
      cases hconcerns
      have hsame := permission_suppressed (hsuppressed presentSequence)
      dsimp only [FailureController.call]
      rw [hsame]
    | recordFailure _ presentSequence =>
      cases hconcerns
      have hsame := recordFailure_suppressed (hsuppressed presentSequence)
      dsimp only [FailureController.call]
      rw [hsame]
    | recordSuccess | resetStage => exact absurd hconcerns hkeeps
    | resetAll => exact absurd trivial hkeeps
  · exact records_call hconcerns controller

theorem disabled_calls {calls : List FailureCall} (hkeeps : ∀ call ∈ calls, ¬ call.Clears stage)
    (h : (controller.record stage).status = .disabled) :
    (controller.calls calls).2.records stage = controller.records stage := by
  induction calls generalizing controller with
  | nil => rfl
  | cons call _ ih =>
    have hcall := disabled_call (hkeeps call List.mem_cons_self) h
    have hstill : ((controller.call call).2.record stage).status = .disabled := by
      unfold record at h ⊢
      rw [hcall]
      exact h
    have hrest := ih (fun later hmem => hkeeps later (List.mem_cons_of_mem _ hmem)) hstill
    exact hrest.trans hcall

theorem state_disabled_iff :
    (∃ cooldowns, controller.state stage = .disabled cooldowns) ↔
      (controller.record stage).status = .disabled := by
  unfold state record StageRecord.state
  rcases ((controller.records stage).getD .default).status with _ | _ | _
  · simp
  · simp
  · simp

/-- The failure budgets of the stages are exact, whatever the order of the calls. -/
theorem stage_budgets_exact (policy : FailurePolicy) (calls : List FailureCall)
    (stage : RenderStage) :
    let (history, controller) := (new policy).calls calls
    let counted := countedFailures stage history
    let record := controller.record stage
    counted = policy.failuresBeforeCooldown * record.cooldowns + record.consecutiveFailures ∧
    record.consecutiveFailures < policy.failuresBeforeCooldown ∧
    ((∃ cooldowns, controller.state stage = .disabled cooldowns) ↔
      counted = policy.failuresBeforeCooldown * policy.cooldownsBeforeDisable) ∧
    (∀ presentSequence, ¬ controller.Suppressed stage presentSequence →
      let action := (controller.recordFailure stage presentSequence).1
      action = budgetAction policy presentSequence (counted + 1) ∧
      ((∃ retryAtSequence cooldown, action = .cooldownStarted retryAtSequence cooldown) ↔
        policy.failuresBeforeCooldown ∣ counted + 1 ∧
          counted + 1 ≠ policy.failuresBeforeCooldown * policy.cooldownsBeforeDisable) ∧
      ((∃ cooldowns, action = .disabled cooldowns) ↔
        counted + 1 = policy.failuresBeforeCooldown * policy.cooldownsBeforeDisable)) ∧
    (∀ presentSequence, controller.Suppressed stage presentSequence →
      controller.recordFailure stage presentSequence =
          (.alreadySuppressed (controller.state stage), controller) ∧
        (controller.permission stage presentSequence).2 = controller) ∧
    (∀ call : FailureCall, ¬ call.Concerns stage →
      (controller.call call).2.records stage = controller.records stage) ∧
    (∀ further : List FailureCall, (∀ call ∈ further, ¬ call.Clears stage) →
      ∀ cooldowns, controller.state stage = .disabled cooldowns →
        (controller.calls further).2.state stage = .disabled cooldowns) := by
  obtain ⟨hpolicy, hbudget⟩ :=
    budgeted_calls stage calls (rfl : (new policy).policy = policy) (budgeted_default policy)
  refine ⟨hbudget.counted_eq, hbudget.consecutive_lt, ?_, ?_, ?_, ?_, ?_⟩
  · exact state_disabled_iff.trans hbudget.disabled_iff_counted
  · intro presentSequence hnot
    obtain ⟨hanswer, _⟩ := recordFailure_spec hpolicy hbudget hnot
    refine ⟨hanswer, ?_, ?_⟩
    · rw [hanswer]
      exact budgetAction_cooldown
    · rw [hanswer]
      exact budgetAction_disabled
  · intro presentSequence h
    exact ⟨recordFailure_suppressed h, permission_suppressed h⟩
  · intro call h
    exact records_call h _
  · intro further hkeeps cooldowns hstate
    have hsame := disabled_calls hkeeps (state_disabled_iff.mp ⟨cooldowns, hstate⟩)
    unfold state at hstate ⊢
    rw [hsame]
    exact hstate

end FailureController

end Nexus.Render
