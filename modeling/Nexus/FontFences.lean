import Nexus.FontPublicationMoves

namespace Nexus.FontNotifications

open StepRuns

namespace FontApi

/-- Whether the receipts cover every callback of the generation that can still pass something on, and
whether nothing is on its way when the cleanup returns. -/
def Fenceable (api : FontApi) : FontApiStep → Prop
  | .cleanupOwnerCallbacks _ owner => ∀ entry ∈ api.publications.zipIdx, entry.1.key.owner = owner →
      entry.2 ∈ api.subscriptions.publications owner ∨ api.Inert entry.1
  | .cleanupReturn thread => match api.calls thread with
    | .cleaned owner accepted => ∀ entry ∈ api.publications.zipIdx, entry.1.key.owner = owner →
        entry.2 < accepted → api.Closed entry.1 ∨ entry.1.native.held = []
    | _ => True
  | _ => True

/-- Once a cleanup has returned, none of the callbacks accepted before passes anything on. -/
def Fenced (api : FontApi) : Prop :=
  ∀ fence ∈ api.fences, ∀ index < fence.accepted, ∀ publication,
    api.publications[index]? = some publication → publication.key.owner = fence.owner →
      publication.native.started = fence.started index

def Covers (api : FontApi) : FontCall → Prop
  | .fencing owner accepted left => accepted ≤ api.publications.length ∧ ∀ index < accepted,
      ∀ publication, api.publications[index]? = some publication →
        publication.key.owner = owner → index ∈ left ∨ api.Inert publication
  | .cleaned owner accepted => accepted ≤ api.publications.length ∧ ∀ index < accepted,
      ∀ publication, api.publications[index]? = some publication →
        publication.key.owner = owner → api.Inert publication
  | _ => True

def Holds (api : FontApi) (fence : Fence) : Prop :=
  fence.accepted ≤ api.publications.length ∧ ∀ index < fence.accepted,
    ∀ publication, api.publications[index]? = some publication →
      publication.key.owner = fence.owner →
        api.Dead publication ∧ publication.native.started = fence.started index

structure Fencing (api : FontApi) : Prop where
  calls : ∀ thread, api.Covers (api.calls thread)
  fences : ∀ fence ∈ api.fences, api.Holds fence

theorem fencing_new : new.Fencing where
  calls _ := trivial
  fences _ h := by cases h

section Covers

variable {api next : FontApi} {accepted : Nat}

theorem Keeps.origin (hkeeps : Keeps api next) {index : Nat} {after : FontPublication}
    (hbound : accepted ≤ api.publications.length) (hindex : index < accepted)
    (hafter : next.publications[index]? = some after) : ∃ before,
      api.publications[index]? = some before ∧ Kept api next before after := by
  have hlt : index < api.publications.length := Nat.lt_of_lt_of_le hindex hbound
  obtain ⟨_, hfound, hkept⟩ := hkeeps index _ (List.getElem?_eq_getElem hlt)
  cases Option.some.inj (hfound.symm.trans hafter)
  exact ⟨_, List.getElem?_eq_getElem hlt, hkept⟩

variable {call : FontCall}

theorem Covers.keeps (h : api.Covers call) (hkeeps : Keeps api next) : next.Covers call := by
  cases call with
  | fencing =>
    refine ⟨Nat.le_trans h.1 hkeeps.length_le, fun index hindex publication hfound howner => ?_⟩
    obtain ⟨before, hbefore, hkept⟩ := hkeeps.origin h.1 hindex hfound
    exact (h.2 index hindex before hbefore (hkept.key ▸ howner)).imp_right hkept.inert
  | cleaned =>
    refine ⟨Nat.le_trans h.1 hkeeps.length_le, fun index hindex publication hfound howner => ?_⟩
    obtain ⟨before, hbefore, hkept⟩ := hkeeps.origin h.1 hindex hfound
    exact hkept.inert (h.2 index hindex before hbefore (hkept.key ▸ howner))
  | _ => trivial

theorem Holds.keeps {fence : Fence} (h : api.Holds fence) (hkeeps : Keeps api next) :
    next.Holds fence := by
  refine ⟨Nat.le_trans h.1 hkeeps.length_le, fun index hindex publication hfound howner => ?_⟩
  obtain ⟨before, hbefore, hkept⟩ := hkeeps.origin h.1 hindex hfound
  obtain ⟨hdead, hstarted⟩ := h.2 index hindex before hbefore (hkept.key ▸ howner)
  obtain ⟨hdead', hsame⟩ := hkept.dead hdead
  exact ⟨hdead', hsame.trans hstarted⟩

theorem covers_of_not_fences (h : call.fences = false) : api.Covers call := by
  cases call with
  | fencing | cleaned => cases h
  | _ => trivial

theorem Fencing.quietly (h : api.Fencing) (hquietly : Quietly api next) : next.Fencing where
  calls thread := by
    cases hfences : (next.calls thread).fences with
    | false => exact covers_of_not_fences hfences
    | true =>
      rw [hquietly.calls thread hfences]
      exact (h.calls thread).keeps hquietly.keeps
  fences fence hfence := (h.fences fence (hquietly.fences ▸ hfence)).keeps hquietly.keeps

variable {thread : Nat}

theorem Fencing.update {added : List Fence} (h : api.Fencing) (hkeeps : Keeps api next)
    (hcalls : next.calls = Function.update api.calls thread call) (hcall : next.Covers call)
    (hfences : next.fences = api.fences ++ added) (hadded : ∀ fence ∈ added, next.Holds fence) :
    next.Fencing where
  calls other := by
    rw [hcalls]
    by_cases heq : other = thread
    · rw [heq, Function.update_self]
      exact hcall
    · rw [Function.update_of_ne heq]
      exact (h.calls other).keeps hkeeps
  fences fence hfence := by
    rw [hfences] at hfence
    rcases List.mem_append.mp hfence with hold | hnew
    · exact (h.fences fence hold).keeps hkeeps
    · exact hadded fence hnew

variable {owner : OwnerToken}

theorem Fencing.cleanup (h : api.Fencing)
    (hcovered : api.Fenceable (.cleanupOwnerCallbacks thread owner)) :
    (api.cleanupOwnerCallbacks thread owner).Fencing := by
  refine h.update (keeps_of_eq rfl rfl) rfl ?_ (List.append_nil _).symm fun _ hmem => nomatch hmem
  refine ⟨Nat.le_refl _, fun index hindex publication hfound howner => ?_⟩
  exact hcovered (publication, index) (List.mem_zipIdx_iff_getElem?.mpr hfound) howner

theorem Fencing.abortNext {index : Nat} {rest : List Nat} (h : api.Fencing)
    (hcall : api.calls thread = .fencing owner accepted (index :: rest))
    (hstep : (api.runNative index .abort).map (·.setCall thread (.fencing owner accepted rest)) =
      some next) : next.Fencing := by
  obtain ⟨middle, hmiddle, rfl⟩ := Option.map_eq_some_iff.mp hstep
  have hkeeps : Keeps api (middle.setCall thread (.fencing owner accepted rest)) :=
    (keeps_runNative hmiddle nofun).trans (keeps_of_eq rfl rfl)
  obtain ⟨found, native, hfound, hnative, rfl⟩ := runNative_eq_some hmiddle
  have hcovers := (h.calls thread).keeps hkeeps
  rw [hcall] at hcovers
  refine h.update hkeeps rfl ?_ (List.append_nil _).symm fun _ hmem => nomatch hmem
  refine ⟨hcovers.1, fun other hother publication hpublication howner => ?_⟩
  rcases hcovers.2 other hother publication hpublication howner with hmem | hinert
  · rcases List.mem_cons.mp hmem with heq | hrest
    · refine Or.inr (Or.inr (Or.inl ?_))
      have hlength := (List.getElem?_eq_some_iff.mp hfound).1
      have hself : (api.publications.set index { found with native := native })[other]? =
          some { found with native := native } := by
        rw [heq]
        exact List.getElem?_set_self hlength
      cases Option.some.inj (hself.symm.trans hpublication)
      cases hnative
      rfl
    · exact Or.inl hrest
  · exact Or.inr hinert

theorem Fencing.cleanService {cleaned : Bool} (h : api.Fencing)
    (hcall : api.calls thread = .fencing owner accepted []) :
    ((if cleaned then api.unsubscribe (·.key.owner = owner) else api).setCall thread
      (.cleaned owner accepted)).Fencing := by
  have hkeeps : Keeps api ((if cleaned then api.unsubscribe (·.key.owner = owner)
      else api).setCall thread (.cleaned owner accepted)) := by
    split
    · exact (keeps_unsubscribe _).trans (keeps_of_eq rfl rfl)
    · exact keeps_of_eq rfl rfl
  have hcovers := (h.calls thread).keeps hkeeps
  rw [hcall] at hcovers
  have hcalls : ((if cleaned then api.unsubscribe (·.key.owner = owner) else api).setCall thread
      (.cleaned owner accepted)).calls =
      Function.update api.calls thread (.cleaned owner accepted) := by split <;> rfl
  have hfences : ((if cleaned then api.unsubscribe (·.key.owner = owner) else api).setCall thread
      (.cleaned owner accepted)).fences = api.fences ++ [] := by
    rw [List.append_nil]
    split <;> rfl
  refine h.update hkeeps hcalls ?_ hfences fun _ hmem => nomatch hmem
  refine ⟨hcovers.1, fun index hindex publication hfound howner => ?_⟩
  exact (hcovers.2 index hindex publication hfound howner).resolve_left List.not_mem_nil

theorem Fencing.cleanupReturn (h : api.Fencing)
    (hcall : api.calls thread = .cleaned owner accepted)
    (hheld : api.Fenceable (.cleanupReturn thread)) :
    Fencing { api.setCall thread .idle with
      fences := api.fences ++ [⟨owner, accepted, api.started⟩] } := by
  have hcovers := h.calls thread
  rw [hcall] at hcovers
  unfold Fenceable at hheld
  simp only [hcall] at hheld
  refine h.update (keeps_of_eq rfl rfl) rfl trivial rfl fun fence hfence => ?_
  rw [List.mem_singleton.mp hfence]
  refine ⟨hcovers.1, fun index hindex publication hfound howner => ?_⟩
  change api.publications[index]? = some publication at hfound
  refine ⟨⟨hcovers.2 index hindex publication hfound howner, ?_⟩, ?_⟩
  · exact hheld (publication, index) (List.mem_zipIdx_iff_getElem?.mpr hfound) howner hindex
  · change publication.native.started = api.started index
    unfold started
    rw [hfound]

theorem Fencing.step (h : api.Fencing) {action : FontApiStep} (hfenceable : api.Fenceable action)
    (hstep : FontApi.step api action = some next) : next.Fencing := by
  cases hcleans : action.cleans with
  | false => exact h.quietly (quietly_of_move (move_of_step hstep hcleans))
  | true =>
    cases action with
    | cleanupOwnerCallbacks thread =>
      cases hcall : api.calls thread with
      | idle =>
        simp only [FontApi.step, hcall, Option.some.injEq] at hstep
        exact hstep ▸ h.cleanup hfenceable
      | _ => simp [FontApi.step, hcall] at hstep
    | abortNext thread =>
      cases hcall : api.calls thread with
      | fencing _ _ left =>
        cases left with
        | nil => simp [FontApi.step, hcall] at hstep
        | cons =>
          simp only [FontApi.step, hcall] at hstep
          exact h.abortNext hcall hstep
      | _ => simp [FontApi.step, hcall] at hstep
    | cleanService thread =>
      cases hcall : api.calls thread with
      | fencing _ _ left =>
        cases left with
        | nil =>
          simp only [FontApi.step, hcall, Option.some.injEq] at hstep
          exact hstep ▸ h.cleanService hcall
        | cons => simp [FontApi.step, hcall] at hstep
      | _ => simp [FontApi.step, hcall] at hstep
    | cleanupReturn thread =>
      cases hcall : api.calls thread with
      | cleaned =>
        simp only [FontApi.step, hcall, Option.some.injEq] at hstep
        exact hstep ▸ h.cleanupReturn hcall hfenceable
      | _ => simp [FontApi.step, hcall] at hstep
    | _ => cases hcleans

end Covers

/-- Receipts point to callbacks of their own key, and a cleanup to callbacks of its generation. -/
structure Owned (api : FontApi) : Prop where
  receipts : ∀ entry ∈ api.subscriptions, ∀ index, entry.2.publication = some index →
    ∃ publication, api.publications[index]? = some publication ∧ publication.key = entry.1
  fencing : ∀ thread owner accepted left, api.calls thread = .fencing owner accepted left →
    ∀ index ∈ left, ∃ publication, api.publications[index]? = some publication ∧
      publication.key.owner = owner

theorem owned_new : new.Owned where
  receipts _ h := by cases h
  fencing _ _ _ _ h := by cases h

section Owned

variable {api next : FontApi}

/-- Entries a step adds to the receipts point to a callback of their key. -/
def Receives (api next : FontApi) : Prop :=
  ∀ entry ∈ next.subscriptions, entry ∈ api.subscriptions ∨
    ∃ index publication, entry.2.publication = some index ∧
      api.publications[index]? = some publication ∧ publication.key = entry.1

theorem receives_of_move (hmove : Move api next) : Receives api next := by
  cases hmove with
  | released | forgot =>
    exact fun entry hmem => Or.inl (List.mem_filter.mp hmem).1
  | @received _ index _ publication _ _ hfound =>
    intro entry hmem
    rcases List.mem_cons.mp hmem with rfl | hmem
    · exact Or.inr ⟨index, publication, rfl, hfound, rfl⟩
    · exact Or.inl (List.mem_filter.mp hmem).1
  | settled _ _ hrun | ran _ hrun =>
    obtain ⟨_, _, _, _, rfl⟩ := runNative_eq_some hrun
    exact fun entry hmem => Or.inl hmem
  | _ => exact fun entry hmem => Or.inl hmem

def cleanedOwner (api : FontApi) : FontApiStep → Option OwnerToken
  | .cleanupOwnerCallbacks _ owner => some owner
  | .abortNext thread => match api.calls thread with
    | .fencing owner _ _ => some owner
    | _ => none
  | .cleanService thread _ => match api.calls thread with
    | .fencing owner _ _ => some owner
    | _ => none
  | .cleanupReturn thread => match api.calls thread with
    | .cleaned owner _ => some owner
    | _ => none
  | _ => none

inductive CleanMove (api : FontApi) (owner : OwnerToken) : FontApi → Prop
  | called (thread : Nat) : CleanMove api owner (api.cleanupOwnerCallbacks thread owner)
  | aborted {thread index accepted : Nat} {rest : List Nat} {next : FontApi} :
      api.calls thread = .fencing owner accepted (index :: rest) →
      api.runNative index .abort = some next →
      CleanMove api owner (next.setCall thread (.fencing owner accepted rest))
  | served {thread accepted : Nat} : CleanMove api owner
      ((api.unsubscribe (·.key.owner = owner)).setCall thread (.cleaned owner accepted))
  | rejected {thread accepted : Nat} :
      CleanMove api owner (api.setCall thread (.cleaned owner accepted))
  | returned {thread accepted : Nat} : CleanMove api owner { api.setCall thread .idle with
      fences := api.fences ++ [⟨owner, accepted, api.started⟩] }

variable {action : FontApiStep} {owner : OwnerToken}

theorem cleanMove_of_step (howner : api.cleanedOwner action = some owner)
    (hstep : step api action = some next) : CleanMove api owner next := by
  cases action with
  | cleanupOwnerCallbacks thread =>
    cases howner
    cases hcall : api.calls thread with
    | idle =>
      simp only [step, hcall, Option.some.injEq] at hstep
      exact hstep ▸ .called thread
    | _ => simp [step, hcall] at hstep
  | abortNext thread =>
    cases hcall : api.calls thread with
    | fencing _ _ left =>
      simp only [cleanedOwner, hcall, Option.some.injEq] at howner
      subst howner
      cases left with
      | nil => simp [step, hcall] at hstep
      | cons =>
        simp only [step, hcall] at hstep
        obtain ⟨_, hmiddle, rfl⟩ := Option.map_eq_some_iff.mp hstep
        exact .aborted hcall hmiddle
    | _ => simp [step, hcall] at hstep
  | cleanService thread =>
    cases hcall : api.calls thread with
    | fencing _ _ left =>
      simp only [cleanedOwner, hcall, Option.some.injEq] at howner
      subst howner
      cases left with
      | nil =>
        simp only [step, hcall, Option.some.injEq] at hstep
        subst hstep
        split
        · exact .served
        · exact .rejected
      | cons => simp [step, hcall] at hstep
    | _ => simp [step, hcall] at hstep
  | cleanupReturn thread =>
    cases hcall : api.calls thread with
    | cleaned =>
      simp only [cleanedOwner, hcall, Option.some.injEq] at howner
      subst howner
      simp only [step, hcall, Option.some.injEq] at hstep
      exact hstep ▸ .returned
    | _ => simp [step, hcall] at hstep
  | _ => cases howner

theorem cleanedOwner_of_cleans (hcleans : action.cleans = true)
    (hstep : step api action = some next) : ∃ owner, api.cleanedOwner action = some owner := by
  cases action with
  | cleanupOwnerCallbacks _ owner => exact ⟨owner, rfl⟩
  | abortNext thread | cleanService thread =>
    cases hcall : api.calls thread with
    | fencing owner => exact ⟨owner, by simp [cleanedOwner, hcall]⟩
    | _ => simp [step, hcall] at hstep
  | cleanupReturn thread =>
    cases hcall : api.calls thread with
    | cleaned owner => exact ⟨owner, by simp [cleanedOwner, hcall]⟩
    | _ => simp [step, hcall] at hstep
  | _ => cases hcleans

theorem keeps_of_cleanMove (hmove : CleanMove api owner next) : Keeps api next := by
  cases hmove with
  | called | rejected | returned => exact keeps_of_eq rfl rfl
  | aborted _ hrun => exact (keeps_runNative hrun nofun).trans (keeps_of_eq rfl rfl)
  | served => exact (keeps_unsubscribe _).trans (keeps_of_eq rfl rfl)

theorem receives_of_cleanMove (hmove : CleanMove api owner next) : Receives api next := by
  cases hmove with
  | called => exact fun entry hmem => Or.inl (List.mem_filter.mp hmem).1
  | aborted _ hrun =>
    obtain ⟨_, _, _, _, rfl⟩ := runNative_eq_some hrun
    exact fun entry hmem => Or.inl hmem
  | _ => exact fun entry hmem => Or.inl hmem

theorem Owned.receipts_step (h : api.Owned) (hkeeps : Keeps api next)
    (hreceives : Receives api next) : ∀ entry ∈ next.subscriptions, ∀ index,
      entry.2.publication = some index → ∃ publication,
        next.publications[index]? = some publication ∧ publication.key = entry.1 := by
  intro entry hmem index hindex
  have hbefore : ∃ publication, api.publications[index]? = some publication ∧
      publication.key = entry.1 := by
    rcases hreceives entry hmem with hold | ⟨_, publication, hother, hfound, hkey⟩
    · exact h.receipts entry hold index hindex
    · cases Option.some.inj (hother.symm.trans hindex)
      exact ⟨publication, hfound, hkey⟩
  obtain ⟨publication, hfound, hkey⟩ := hbefore
  obtain ⟨after, hafter, hkept⟩ := hkeeps index publication hfound
  exact ⟨after, hafter, hkept.key.trans hkey⟩

theorem Owned.fencing_clean (h : api.Owned) {cleaned : OwnerToken}
    (hmove : CleanMove api cleaned next) {thread accepted : Nat} {left : List Nat}
    (hcall : next.calls thread = .fencing owner accepted left) :
    ∀ index ∈ left, ∃ publication, api.publications[index]? = some publication ∧
      publication.key.owner = owner := by
  have hothers : ∀ {cleaner : Nat} {call : FontCall},
      Function.update api.calls cleaner call thread = .fencing owner accepted left →
      (thread = cleaner ∧ call = .fencing owner accepted left) ∨
        api.calls thread = .fencing owner accepted left := by
    intro cleaner call hupdated
    by_cases heq : thread = cleaner
    · rw [heq, Function.update_self] at hupdated
      exact Or.inl ⟨heq, hupdated⟩
    · rw [Function.update_of_ne heq] at hupdated
      exact Or.inr hupdated
  cases hmove with
  | called =>
    rcases hothers hcall with ⟨_, hown⟩ | hbefore
    · cases hown
      intro index hindex
      obtain ⟨entry, hentry, hpublication⟩ := List.mem_filterMap.mp hindex
      obtain ⟨hmem, howner⟩ := List.mem_filter.mp hentry
      obtain ⟨publication, hfound, hkey⟩ := h.receipts entry hmem index hpublication
      exact ⟨publication, hfound, hkey ▸ of_decide_eq_true howner⟩
    · exact h.fencing thread owner accepted left hbefore
  | @aborted cleaner _ _ _ _ hbefore hrun =>
    obtain ⟨_, _, _, _, rfl⟩ := runNative_eq_some hrun
    rcases hothers hcall with ⟨_, hown⟩ | hbefore'
    · cases hown
      exact fun other hother =>
        h.fencing cleaner _ _ _ hbefore other (List.mem_cons_of_mem _ hother)
    · exact h.fencing thread owner accepted left hbefore'
  | served | rejected | returned =>
    rcases hothers hcall with ⟨_, hown⟩ | hbefore
    · cases hown
    · exact h.fencing thread owner accepted left hbefore

theorem Owned.step (h : api.Owned) (hstep : FontApi.step api action = some next) : next.Owned := by
  have hkept : ∀ {owner : OwnerToken} {index : Nat}, Keeps api next →
      (∃ publication, api.publications[index]? = some publication ∧
        publication.key.owner = owner) →
      ∃ publication, next.publications[index]? = some publication ∧
        publication.key.owner = owner := by
    rintro owner index hkeeps ⟨publication, hfound, howner⟩
    obtain ⟨after, hafter, hkept⟩ := hkeeps index publication hfound
    exact ⟨after, hafter, hkept.key ▸ howner⟩
  cases hcleans : action.cleans with
  | false =>
    have hmove := move_of_step hstep hcleans
    have hquietly := quietly_of_move hmove
    refine ⟨h.receipts_step hquietly.keeps (receives_of_move hmove), ?_⟩
    intro thread owner accepted left hcall index hindex
    have hbefore := (hquietly.calls thread (by rw [hcall]; rfl)).symm.trans hcall
    exact hkept hquietly.keeps (h.fencing thread owner accepted left hbefore index hindex)
  | true =>
    obtain ⟨owner, howner⟩ := cleanedOwner_of_cleans hcleans hstep
    have hmove := cleanMove_of_step howner hstep
    have hkeeps := keeps_of_cleanMove hmove
    refine ⟨h.receipts_step hkeeps (receives_of_cleanMove hmove), ?_⟩
    intro thread owner accepted left hcall index hindex
    exact hkept hkeeps (h.fencing_clean hmove hcall index hindex)

structure Unaffected (owner : OwnerToken) (api next : FontApi) : Prop where
  publications : ∀ (index : Nat) (publication : FontPublication),
    api.publications[index]? = some publication → publication.key.owner ≠ owner →
      next.publications[index]? = some publication
  receipts : ∀ entry : SubscriptionKey × SubscriptionReceipts, entry.1.owner ≠ owner →
    (entry ∈ next.subscriptions ↔ entry ∈ api.subscriptions)
  gates : ∀ other ≠ owner, next.gates other = api.gates other

theorem Owned.unaffected (h : api.Owned) (hmove : CleanMove api owner next) :
    Unaffected owner api next := by
  cases hmove with
  | called =>
    refine ⟨fun _ _ hfound _ => hfound, fun entry hother => ?_, fun _ _ => rfl⟩
    change entry ∈ List.filter _ _ ↔ _
    rw [List.mem_filter]
    simp [hother]
  | @aborted thread index accepted _ _ hcall hrun =>
    obtain ⟨_, hfound, howner⟩ := h.fencing thread owner accepted _ hcall index
      List.mem_cons_self
    obtain ⟨publication, _, hpublication, _, rfl⟩ := runNative_eq_some hrun
    cases Option.some.inj (hfound.symm.trans hpublication)
    refine ⟨fun other before hbefore hother => ?_, fun _ _ => Iff.rfl, fun other hother => ?_⟩
    · have hne : index ≠ other := by
        rintro rfl
        cases Option.some.inj (hfound.symm.trans hbefore)
        exact hother howner
      exact (List.getElem?_set_ne hne).trans hbefore
    · exact Function.update_of_ne (howner ▸ hother) _ _
  | served =>
    refine ⟨fun index publication hfound hother => ?_, fun _ _ => Iff.rfl, fun _ _ => rfl⟩
    change (List.map _ _)[index]? = _
    rw [List.getElem?_map, hfound]
    simp [hother]
  | rejected | returned => exact ⟨fun _ _ hfound _ => hfound, fun _ _ => Iff.rfl, fun _ _ => rfl⟩

end Owned

/-- Where the receipts cover what can still be passed on, a cleanup fences its generation for good, and
no cleanup touches another one. -/
theorem cleanup_fences_publications {actions : List FontApiStep} {final : FontApi}
    (hrun : runSteps step new actions = some final)
    (hfenceable : EveryStep step Fenceable new actions) :
    final.Fenced ∧ ∀ owner action next, final.cleanedOwner action = some owner →
      step final action = some next → Unaffected owner final next := by
  have hboth : final.Fencing ∧ final.Owned := by
    refine hfenceable.invariant (Q := fun api => api.Fencing ∧ api.Owned) ?_ hrun
      ⟨fencing_new, owned_new⟩
    rintro api action next hstep hstate ⟨hfencing, howned⟩
    exact ⟨hfencing.step hstate hstep, howned.step hstep⟩
  refine ⟨fun fence hfence index hindex publication hfound howner => ?_,
    fun owner action next howner hstep => hboth.2.unaffected (cleanMove_of_step howner hstep)⟩
  exact ((hboth.1.fences fence hfence).2 index hindex publication hfound howner).2

instance (api : FontApi) : ∀ action, Decidable (api.Fenceable action)
  | .cleanupOwnerCallbacks _ _ => inferInstanceAs (Decidable (∀ entry ∈ _, _ → _))
  | .cleanupReturn thread => match h : api.calls thread with
    | .cleaned owner accepted => decidable_of_iff (∀ entry ∈ api.publications.zipIdx,
        entry.1.key.owner = owner → entry.2 < accepted →
          api.Closed entry.1 ∨ entry.1.native.held = []) (by simp only [Fenceable, h])
    | .idle | .serving _ _ | .accepted _ _ _ | .recorded _ | .rollingBack _ | .forgetting _
    | .entering _ _ | .releasing _ _ _ | .restoring _ _ | .fencing _ _ _ =>
      isTrue (by simp only [Fenceable, h])
  | .subscribe _ _ _ | .accept _ _ | .reject _ | .record _ | .validate _ _
  | .registrationFails _ _ | .rollback _ _ | .forget _ | .release _ _ | .enterRelease _
  | .releaseOne _ _ | .releaseEnd _ | .restore _ | .abortNext _ | .cleanService _ _
  | .notify _ _ _ | .dispatch _ _ | .closeGate _ => isTrue trivial

/-- A font is subscribed, its generation cleaned up against a service that fails, and notified. -/
theorem cleanedRun_fenced : ∃ final, runSteps step new [
      .subscribe 0 ⟨⟨7, 1⟩, "menu", 40⟩ false, .accept 0 (some 1), .record 0, .validate 0 true,
      .cleanupOwnerCallbacks 1 ⟨7, 1⟩, .abortNext 1, .cleanService 1 false, .cleanupReturn 1,
      .notify 0 "menu" (some ⟨4096⟩)] = some final ∧
    final.fences.length = 1 ∧ final.Fenced ∧ ∀ owner action next,
      final.cleanedOwner action = some owner → step final action = some next →
        Unaffected owner final next := by
  obtain ⟨final, hrun⟩ := Option.isSome_iff_exists.mp (rfl : (runSteps step new [
    .subscribe 0 ⟨⟨7, 1⟩, "menu", 40⟩ false, .accept 0 (some 1), .record 0, .validate 0 true,
    .cleanupOwnerCallbacks 1 ⟨7, 1⟩, .abortNext 1, .cleanService 1 false, .cleanupReturn 1,
    .notify 0 "menu" (some ⟨4096⟩)]).isSome = true)
  have hfences : (runSteps step new [
      .subscribe 0 ⟨⟨7, 1⟩, "menu", 40⟩ false, .accept 0 (some 1), .record 0, .validate 0 true,
      .cleanupOwnerCallbacks 1 ⟨7, 1⟩, .abortNext 1, .cleanService 1 false, .cleanupReturn 1,
      .notify 0 "menu" (some ⟨4096⟩)]).map (·.fences.length) = some 1 := rfl
  rw [hrun] at hfences
  obtain ⟨hfenced, hothers⟩ := cleanup_fences_publications hrun (by decide +kernel)
  exact ⟨final, hrun, Option.some.inj hfences, hfenced, hothers⟩

/-- A rejected release puts its own callback in the receipts, so the cleanup fences that one. -/
theorem rejected_release_unfences : ¬ ∀ (actions : List FontApiStep) (final : FontApi),
    runSteps step new actions = some final → final.Fenced := by
  intro hfenced
  obtain ⟨final, hrun⟩ := Option.isSome_iff_exists.mp (rfl : (runSteps step new [
    .subscribe 0 ⟨⟨7, 1⟩, "menu", 40⟩ false, .accept 0 (some 1), .record 0, .validate 0 true,
    .release 0 ⟨⟨7, 1⟩, "menu", 40⟩, .enterRelease 0, .releaseOne 0 false, .releaseEnd 0,
    .restore 0, .cleanupOwnerCallbacks 1 ⟨7, 1⟩, .abortNext 1, .cleanService 1 false,
    .cleanupReturn 1, .notify 0 "menu" (some ⟨4096⟩), .dispatch 0 (.take 0),
    .dispatch 0 (.enter 0)]).isSome = true)
  have hfacts : (runSteps step new [
      .subscribe 0 ⟨⟨7, 1⟩, "menu", 40⟩ false, .accept 0 (some 1), .record 0, .validate 0 true,
      .release 0 ⟨⟨7, 1⟩, "menu", 40⟩, .enterRelease 0, .releaseOne 0 false, .releaseEnd 0,
      .restore 0, .cleanupOwnerCallbacks 1 ⟨7, 1⟩, .abortNext 1, .cleanService 1 false,
      .cleanupReturn 1, .notify 0 "menu" (some ⟨4096⟩), .dispatch 0 (.take 0),
      .dispatch 0 (.enter 0)]).map (fun api =>
        (api.fences.map fun fence => (fence.owner, fence.accepted, fence.started 0),
          (api.publications[0]?).map fun publication =>
            (publication.key.owner, publication.native.started))) =
      some ([(⟨7, 1⟩, 2, [])], some (⟨7, 1⟩, [⟨"menu", 4096, 0⟩])) := rfl
  rw [hrun, Option.map_some, Option.some.injEq, Prod.mk.injEq] at hfacts
  obtain ⟨hfences, hpublication⟩ := hfacts
  obtain ⟨publication, hfound, hstarted⟩ := Option.map_eq_some_iff.mp hpublication
  obtain ⟨fence, _, hsplit, hfence, _⟩ := List.map_eq_cons_iff.mp hfences
  rw [Prod.mk.injEq] at hstarted hfence
  rw [Prod.mk.injEq] at hfence
  have hsame := hfenced _ final hrun fence (hsplit ▸ List.mem_cons_self) 0
    (by rw [hfence.2.1]; decide) publication hfound (hstarted.1.trans hfence.1.symm)
  rw [hstarted.2, hfence.2.2] at hsame
  cases hsame

end FontApi

end Nexus.FontNotifications
