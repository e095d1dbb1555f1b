import Nexus.FontCallbackSteps
import Nexus.FontPublications

namespace Nexus.FontNotifications

namespace FontApi

def Closed (api : FontApi) (publication : FontPublication) : Prop :=
  (api.gates publication.key.owner).accepting = false

instance (api : FontApi) (publication : FontPublication) : Decidable (api.Closed publication) :=
  inferInstanceAs (Decidable (_ = _))

/-- No notification is taken off the queue any more. -/
def Inert (api : FontApi) (publication : FontPublication) : Prop :=
  api.Closed publication ∨ publication.native.queue.aborted = true ∨
    publication.subscribed = false ∧ publication.native.outstanding = []

instance (api : FontApi) (publication : FontPublication) : Decidable (api.Inert publication) :=
  inferInstanceAs (Decidable (_ ∨ _))

/-- No notification is taken off the queue any more, and none is held. -/
def Dead (api : FontApi) (publication : FontPublication) : Prop :=
  api.Inert publication ∧ (api.Closed publication ∨ publication.native.held = [])

structure Kept (api next : FontApi) (before after : FontPublication) : Prop where
  key : after.key = before.key
  inert : api.Inert before → next.Inert after
  dead : api.Dead before → next.Dead after ∧ after.native.started = before.native.started

def Keeps (api next : FontApi) : Prop :=
  ∀ (index : Nat) (before : FontPublication), api.publications[index]? = some before →
    ∃ after, next.publications[index]? = some after ∧ Kept api next before after

section Keeps

variable {api middle next : FontApi}

theorem Keeps.trans (hfirst : Keeps api middle) (hsecond : Keeps middle next) : Keeps api next := by
  intro index before hbefore
  obtain ⟨between, hbetween, hkept⟩ := hfirst index before hbefore
  obtain ⟨after, hafter, hkept'⟩ := hsecond index between hbetween
  refine ⟨after, hafter, hkept'.key.trans hkept.key, fun h => hkept'.inert (hkept.inert h),
    fun h => ?_⟩
  obtain ⟨hdead, hstarted⟩ := hkept.dead h
  obtain ⟨hdead', hstarted'⟩ := hkept'.dead hdead
  exact ⟨hdead', hstarted'.trans hstarted⟩

theorem kept_native {before after : FontPublication}
    (hgates : ∀ owner, (api.gates owner).accepting = false → (next.gates owner).accepting = false)
    (hkey : after.key = before.key) (hnative : after.native = before.native)
    (hsubscribed : before.subscribed = false → after.subscribed = false) :
    Kept api next before after := by
  have hclosed : api.Closed before → next.Closed after := by
    intro hclosed
    unfold Closed
    rw [hkey]
    exact hgates _ hclosed
  have hinert : api.Inert before → next.Inert after := by
    unfold Inert
    rw [hnative]
    exact Or.imp hclosed (Or.imp_right (And.imp_left hsubscribed))
  refine ⟨hkey, hinert, fun ⟨hbefore, hheld⟩ => ⟨⟨hinert hbefore, ?_⟩, by rw [hnative]⟩⟩
  rw [hnative]
  exact hheld.imp_left hclosed

theorem keeps_of_eq (hpublications : next.publications = api.publications)
    (hgates : next.gates = api.gates) : Keeps api next := by
  intro index before hbefore
  refine ⟨before, hpublications ▸ hbefore, kept_native (fun owner => ?_) rfl rfl id⟩
  rw [hgates]
  exact id

theorem keeps_append {publication : FontPublication}
    (hpublications : next.publications = api.publications ++ [publication])
    (hgates : next.gates = api.gates) : Keeps api next := by
  intro index before hbefore
  have hlength : index < api.publications.length := (List.getElem?_eq_some_iff.mp hbefore).1
  refine ⟨before, ?_, kept_native (fun owner => ?_) rfl rfl id⟩
  · rw [hpublications, List.getElem?_append_left hlength]
    exact hbefore
  · rw [hgates]
    exact id

theorem keeps_unsubscribe (picked : FontPublication → Bool) :
    Keeps api (api.unsubscribe picked) := by
  intro index before hbefore
  have hfound : (api.unsubscribe picked).publications[index]? =
      some (if picked before then { before with subscribed := false } else before) := by
    rw [unsubscribe, List.getElem?_map, hbefore]
    rfl
  refine ⟨_, hfound, kept_native (fun _ => id) ?_ ?_ fun hsubscribed => ?_⟩
  · split <;> rfl
  · split <;> rfl
  · split
    · rfl
    · exact hsubscribed

variable {index : Nat}

theorem keeps_modify {f : FontPublication → FontPublication}
    (hpublications : next.publications = api.publications.modify index f)
    (hgates : next.gates = api.gates)
    (hkey : ∀ publication, (f publication).key = publication.key)
    (hnative : ∀ publication, (f publication).native = publication.native)
    (hsubscribed : ∀ publication, publication.subscribed = false →
      (f publication).subscribed = false) : Keeps api next := by
  intro other before hbefore
  have hfound : next.publications[other]? = some (if index = other then f before else before) := by
    rw [hpublications, List.getElem?_modify, hbefore]
    split <;> rfl
  refine ⟨_, hfound, kept_native (fun owner => by rw [hgates]; exact id) ?_ ?_ fun hbefore => ?_⟩
  · split
    · exact hkey before
    · rfl
  · split
    · exact hnative before
    · rfl
  · split
    · exact hsubscribed before hbefore
    · exact hbefore

variable {action : FontStep}

theorem runNative_eq_some (h : api.runNative index action = some next) : ∃ publication native,
      api.publications[index]? = some publication ∧
      NativeFontCallback.step
        { publication.native with gate := api.gates publication.key.owner } action = some native ∧
      next = { api with
        publications := api.publications.set index { publication with native := native }
        gates := Function.update api.gates publication.key.owner native.gate } := by
  unfold runNative at h
  cases hfound : api.publications[index]? with
  | none =>
    rw [hfound] at h
    cases h
  | some publication =>
    rw [hfound] at h
    obtain ⟨native, hnative, hnext⟩ := Option.map_eq_some_iff.mp h
    exact ⟨publication, native, rfl, hnative, hnext.symm⟩

theorem keeps_runNative (h : api.runNative index action = some next)
    (hsubscribed : action.enqueues = true → api.publications[index]?.any (·.subscribed) = true) :
    Keeps api next := by
  obtain ⟨publication, native, hfound, hstep, rfl⟩ := runNative_eq_some h
  have hgates : ∀ owner, (api.gates owner).accepting = false →
      (Function.update api.gates publication.key.owner native.gate owner).accepting = false := by
    intro owner hclosed
    by_cases heq : owner = publication.key.owner
    · rw [heq, Function.update_self]
      rw [heq] at hclosed
      exact NativeFontCallback.closed_step hstep hclosed
    · rw [Function.update_of_ne heq]
      exact hclosed
  intro other before hbefore
  by_cases heq : index = other
  · subst heq
    cases Option.some.inj (hfound.symm.trans hbefore)
    have hlength : index < api.publications.length := (List.getElem?_eq_some_iff.mp hfound).1
    have hquiet : publication.subscribed = false → action.enqueues = false := by
      intro hnot
      by_contra henqueues
      have hyes := hsubscribed (eq_true_of_ne_false henqueues)
      rw [hfound] at hyes
      exact absurd (hyes.symm.trans hnot) Bool.noConfusion
    have hclosed : api.Closed publication → _ := hgates publication.key.owner
    have hempty : publication.subscribed = false ∧ publication.native.outstanding = [] →
        native.outstanding = [] := by
      rintro ⟨hnot, houtstanding⟩
      obtain ⟨hheld, hpending⟩ := List.append_eq_nil_iff.mp houtstanding
      exact List.append_eq_nil_iff.mpr
        ⟨NativeFontCallback.held_step hstep hheld (Or.inr ⟨hpending, hquiet hnot⟩),
          NativeFontCallback.pending_step hstep hpending (hquiet hnot)⟩
    refine ⟨_, List.getElem?_set_self hlength, rfl, ?_, ?_⟩
    · rintro (hshut | haborted | hspent)
      · exact Or.inl (hclosed hshut)
      · exact Or.inr (Or.inl (NativeFontCallback.aborted_step hstep haborted))
      · exact Or.inr (Or.inr ⟨hspent.1, hempty hspent⟩)
    · rintro ⟨hinert, hheld⟩
      have hstarted := NativeFontCallback.started_step hstep hheld
      refine ⟨?_, hstarted⟩
      by_cases hshut : api.Closed publication
      · exact ⟨Or.inl (hclosed hshut), Or.inl (hclosed hshut)⟩
      · have hnothing := hheld.resolve_left hshut
        rcases hinert.resolve_left hshut with haborted | hspent
        · exact ⟨Or.inr (Or.inl (NativeFontCallback.aborted_step hstep haborted)),
            Or.inr (NativeFontCallback.held_step hstep hnothing (Or.inl haborted))⟩
        · exact ⟨Or.inr (Or.inr ⟨hspent.1, hempty hspent⟩),
            Or.inr (List.append_eq_nil_iff.mp (hempty hspent)).1⟩
  · refine ⟨before, ?_, kept_native hgates rfl rfl id⟩
    exact (List.getElem?_set_ne heq).trans hbefore

theorem Keeps.length_le (h : Keeps api next) :
    api.publications.length ≤ next.publications.length := by
  cases hlength : api.publications.length with
  | zero => exact Nat.zero_le _
  | succ last =>
    have hlt : last < api.publications.length := by omega
    obtain ⟨_, hafter, _⟩ := h last _ (List.getElem?_eq_getElem hlt)
    exact (List.getElem?_eq_some_iff.mp hafter).1

end Keeps

end FontApi

namespace FontCall

def fences : FontCall → Bool
  | .fencing _ _ _ => true
  | .cleaned _ _ => true
  | _ => false

end FontCall

namespace FontApiStep

def cleans : FontApiStep → Bool
  | .cleanupOwnerCallbacks _ _ => true
  | .abortNext _ => true
  | .cleanService _ _ => true
  | .cleanupReturn _ => true
  | _ => false

end FontApiStep

namespace FontApi

structure Quietly (api next : FontApi) : Prop where
  keeps : Keeps api next
  fences : next.fences = api.fences
  calls : ∀ thread, (next.calls thread).fences → next.calls thread = api.calls thread

section Quietly

variable {api next : FontApi} {thread : Nat} {call : FontCall}

inductive Move (api : FontApi) : FontApi → Prop
  | called {thread : Nat} {call : FontCall} : call.fences = false →
      Move api (api.setCall thread call)
  | subscribed {thread : Nat} {call : FontCall} {publication : FontPublication} :
      call.fences = false → Move api { api.setCall thread call with
        publications := api.publications ++ [publication] }
  | released {thread : Nat} {call : FontCall} {publication : FontPublication}
      (key : SubscriptionKey) : call.fences = false → Move api { api.setCall thread call with
        subscriptions := api.subscriptions.remove key
        publications := api.publications ++ [publication] }
  | served {thread index : Nat} {call : FontCall} {f : FontPublication → FontPublication} :
      call.fences = false → (∀ publication, (f publication).key = publication.key) →
      (∀ publication, (f publication).native = publication.native) →
      (∀ publication, publication.subscribed = false → (f publication).subscribed = false) →
      Move api { api.setCall thread call with publications := api.publications.modify index f }
  | received {thread index : Nat} {call : FontCall} {publication : FontPublication}
      {subscriptions : List Nat} : call.fences = false →
      api.publications[index]? = some publication → Move api { api.setCall thread call with
        subscriptions := api.subscriptions.insert publication.key subscriptions index }
  | forgot {thread : Nat} {call : FontCall} (owner : OwnerToken) : call.fences = false →
      Move api { api.setCall thread call with subscriptions := api.subscriptions.forget owner }
  | settled {thread index : Nat} {call : FontCall} {action : FontStep} {next : FontApi} :
      call.fences = false → action.enqueues = false → api.runNative index action = some next →
      Move api (next.setCall thread call)
  | ran {index : Nat} {action : FontStep} {next : FontApi} :
      (action.enqueues = true → api.publications[index]?.any (·.subscribed) = true) →
      api.runNative index action = some next → Move api next
  | unsubscribed {thread : Nat} {call : FontCall} (picked : FontPublication → Bool) :
      call.fences = false → Move api ((api.unsubscribe picked).setCall thread call)
  | closed (owner : OwnerToken) : Move api
      { api with gates := Function.update api.gates owner (api.gates owner).close }

variable {index : Nat}

theorem move_of_runNative {action : FontStep}
    (h : (api.runNative index action).map (·.setCall thread call) = some next)
    (hno : action.enqueues = false) (hquiet : call.fences = false) : Move api next := by
  obtain ⟨_, hmiddle, rfl⟩ := Option.map_eq_some_iff.mp h
  exact .settled hquiet hno hmiddle

theorem move_of_record {subscription : Option Nat} {required : Bool}
    (h : api.record thread index subscription required = some next) : Move api next := by
  unfold record at h
  split at h
  next hfound =>
    cases h
    exact .received rfl hfound
  next =>
    split at h
    · exact move_of_runNative h rfl rfl
    · cases h
      exact .called rfl
  next => cases h

theorem move_of_validate {valid : Bool} (h : api.validate thread index valid = some next) :
    Move api next := by
  unfold validate at h
  split at h
  next => cases h
  next =>
    split at h
    · exact move_of_runNative h rfl rfl
    · exact move_of_runNative h rfl rfl

theorem move_of_release (key : SubscriptionKey) : Move api (api.release thread key) := by
  refine .released key ?_
  split <;> rfl

theorem move_of_releaseOne {subscriptions rejected : List Nat} {released : Bool}
    (h : api.releaseOne thread index subscriptions rejected released = some next) :
    Move api next := by
  unfold releaseOne at h
  split at h
  next => cases h
  next =>
    cases h
    split
    · exact .unsubscribed _ rfl
    · exact .called rfl

theorem move_of_step {action : FontApiStep} (hstep : step api action = some next)
    (hno : action.cleans = false) : Move api next := by
  cases action with
  | subscribe thread =>
    cases hcall : api.calls thread with
    | idle =>
      simp only [step, hcall, Option.some.injEq] at hstep
      exact hstep ▸ .subscribed rfl
    | _ => simp [step, hcall] at hstep
  | accept thread =>
    cases hcall : api.calls thread with
    | serving =>
      simp only [step, hcall, Option.some.injEq] at hstep
      subst hstep
      refine .served rfl (fun _ => rfl) (fun _ => rfl) fun publication hnot => ?_
      simp [hnot]
    | _ => simp [step, hcall] at hstep
  | reject thread =>
    cases hcall : api.calls thread with
    | serving =>
      simp only [step, hcall, Option.some.injEq] at hstep
      subst hstep
      exact .served rfl (fun _ => rfl) (fun _ => rfl) fun _ _ => rfl
    | _ => simp [step, hcall] at hstep
  | record thread =>
    cases hcall : api.calls thread with
    | accepted =>
      simp only [step, hcall] at hstep
      exact move_of_record hstep
    | _ => simp [step, hcall] at hstep
  | validate thread =>
    cases hcall : api.calls thread with
    | recorded =>
      simp only [step, hcall] at hstep
      exact move_of_validate hstep
    | _ => simp [step, hcall] at hstep
  | registrationFails thread =>
    cases hcall : api.calls thread with
    | idle =>
      simp only [step, hcall, Option.some.injEq] at hstep
      exact hstep ▸ .called rfl
    | _ => simp [step, hcall] at hstep
  | rollback thread =>
    cases hcall : api.calls thread with
    | rollingBack =>
      simp only [step, hcall, Option.some.injEq] at hstep
      subst hstep
      split
      · exact .unsubscribed _ rfl
      · exact .called rfl
    | _ => simp [step, hcall] at hstep
  | forget thread =>
    cases hcall : api.calls thread with
    | forgetting owner =>
      simp only [step, hcall, Option.some.injEq] at hstep
      exact hstep ▸ .forgot owner rfl
    | _ => simp [step, hcall] at hstep
  | release thread key =>
    cases hcall : api.calls thread with
    | idle =>
      simp only [step, hcall, Option.some.injEq] at hstep
      exact hstep ▸ move_of_release key
    | _ => simp [step, hcall] at hstep
  | enterRelease thread =>
    cases hcall : api.calls thread with
    | entering =>
      simp only [step, hcall, Option.some.injEq] at hstep
      subst hstep
      refine .called ?_
      split <;> rfl
    | _ => simp [step, hcall] at hstep
  | releaseOne thread =>
    cases hcall : api.calls thread with
    | releasing =>
      simp only [step, hcall] at hstep
      exact move_of_releaseOne hstep
    | _ => simp [step, hcall] at hstep
  | releaseEnd thread =>
    cases hcall : api.calls thread with
    | releasing _ subscriptions =>
      cases subscriptions with
      | nil =>
        simp only [step, hcall, Option.some.injEq] at hstep
        subst hstep
        refine .called ?_
        split <;> rfl
      | cons => simp [step, hcall] at hstep
    | _ => simp [step, hcall] at hstep
  | restore thread =>
    cases hcall : api.calls thread with
    | restoring =>
      simp only [step, hcall] at hstep
      obtain ⟨publication, hfound, rfl⟩ := Option.map_eq_some_iff.mp hstep
      exact .received rfl hfound
    | _ => simp [step, hcall] at hstep
  | notify index =>
    by_cases hsubscribed : api.publications[index]?.any (·.subscribed) = true
    · exact .ran (fun _ => hsubscribed) ((if_pos hsubscribed).symm.trans hstep)
    · cases (if_neg hsubscribed).symm.trans hstep
  | dispatch _ action =>
    by_cases hdrains : action.drains = true
    · refine .ran (fun henqueues => ?_) ((if_pos hdrains).symm.trans hstep)
      exact absurd (henqueues.symm.trans (FontStep.enqueues_of_drains hdrains)) Bool.noConfusion
    · cases (if_neg hdrains).symm.trans hstep
  | closeGate owner =>
    cases hstep
    exact .closed owner
  | _ => cases hno

theorem quietly_update (hkeeps : Keeps api next) (hfences : next.fences = api.fences)
    (hcalls : next.calls = Function.update api.calls thread call) (hquiet : call.fences = false) :
    Quietly api next := by
  refine ⟨hkeeps, hfences, fun other hother => ?_⟩
  rw [hcalls] at hother ⊢
  by_cases heq : other = thread
  · rw [heq, Function.update_self, hquiet] at hother
    exact absurd hother Bool.false_ne_true
  · exact Function.update_of_ne heq _ _

theorem quietly_of_move (hmove : Move api next) : Quietly api next := by
  cases hmove with
  | called hquiet | received hquiet | forgot _ hquiet =>
    exact quietly_update (keeps_of_eq rfl rfl) rfl rfl hquiet
  | subscribed hquiet | released _ hquiet =>
    exact quietly_update (keeps_append rfl rfl) rfl rfl hquiet
  | served hquiet hkey hnative hsubscribed =>
    exact quietly_update (keeps_modify rfl rfl hkey hnative hsubscribed) rfl rfl hquiet
  | settled hquiet hno hrun =>
    have hkeeps := keeps_runNative hrun fun hyes =>
      absurd (hyes.symm.trans hno) Bool.noConfusion
    obtain ⟨_, _, _, _, rfl⟩ := runNative_eq_some hrun
    exact quietly_update (hkeeps.trans (keeps_of_eq rfl rfl)) rfl rfl hquiet
  | ran hsubscribed hrun =>
    have hkeeps := keeps_runNative hrun hsubscribed
    obtain ⟨_, _, _, _, rfl⟩ := runNative_eq_some hrun
    exact ⟨hkeeps, rfl, fun _ _ => rfl⟩
  | unsubscribed picked hquiet =>
    exact quietly_update ((keeps_unsubscribe picked).trans (keeps_of_eq rfl rfl)) rfl rfl hquiet
  | closed owner =>
    refine ⟨fun index before hbefore => ⟨before, hbefore, kept_native ?_ rfl rfl id⟩, rfl,
      fun _ _ => rfl⟩
    intro other hclosed
    change (Function.update api.gates owner _ other).accepting = false
    by_cases heq : other = owner
    · rw [heq, Function.update_self]
      rfl
    · rw [Function.update_of_ne heq]
      exact hclosed

end Quietly

end FontApi

end Nexus.FontNotifications
