import Mathlib.Data.List.Count
import Mathlib.Data.List.Nodup
import Nexus.ThreadAffinity

namespace Nexus.Overlay

inductive Accepted (thread : Nat) (proof : Option AffinityProof) (state next : AffinityState) :
    Nat → Prop where
  | joined (owner : AffinityOwner) (hold : state.owner = some owner) (hthread : owner.thread = thread)
      (hnew : next.owner = some { owner with claims := owner.claims + 1 })
      (hnext : next.nextToken = state.nextToken) : Accepted thread proof state next owner.token
  | opened (hnew : next.owner = some ⟨thread, state.nextToken + 1, 1, 0, 0⟩)
      (hnext : next.nextToken = state.nextToken + 1)
      (hold : ∀ owner, state.owner = some owner → owner.thread ≠ thread ∧ owner.claims = 0 ∧
        owner.guards = 0 ∧ proof.isSome = true)
      (hproof : proof = none → state.latestProof = none) :
      Accepted thread proof state next (state.nextToken + 1)

section Claims

variable {thread : Nat} {proof : Option AffinityProof} {state : AffinityState}

theorem openEpoch_cases (thread : Nat) (state : AffinityState) :
    AffinityState.openEpoch thread state = (.error .exhausted, state) ∨
      AffinityState.openEpoch thread state = (.ok (state.nextToken + 1), { state with
        owner := some ⟨thread, state.nextToken + 1, 1, 0, 0⟩
        nextToken := state.nextToken + 1 }) := by
  unfold AffinityState.openEpoch
  rcases h : checkedAdd state.nextToken with _ | _
  · left
    rw [Fallible.bind_of_error (e := .exhausted) (t := state)]
    unfold AffinityState.issueToken
    rw [h]
  · right
    obtain rfl := checkedAdd_eq_some h
    rw [Fallible.bind_of_ok (a := state.nextToken + 1)
      (t := { state with nextToken := state.nextToken + 1 })]
    · rfl
    · unfold AffinityState.issueToken
      rw [h]

variable (thread proof state) in
theorem claimToken_cases :
    (∃ error, AffinityState.claimToken thread proof state = (.error error, state)) ∨
      ∃ token next, AffinityState.claimToken thread proof state = (.ok token, next) ∧
        next.latestProof = state.latestProof ∧ Accepted thread proof state next token := by
  unfold AffinityState.claimToken
  split
  next owner howner =>
    by_cases hthread : owner.thread = thread
    · rw [if_pos hthread]
      rcases hclaims : checkedAdd owner.claims with _ | claims
      · exact Or.inl ⟨_, rfl⟩
      · obtain rfl := checkedAdd_eq_some hclaims
        exact Or.inr ⟨_, _, rfl, rfl, .joined owner howner hthread rfl rfl⟩
    · rw [if_neg hthread]
      by_cases hnone : proof.isNone = true
      · rw [if_pos hnone]
        exact Or.inl ⟨_, rfl⟩
      by_cases hbusy : owner.claims ≠ 0 ∨ owner.guards ≠ 0
      · rw [if_neg hnone, if_pos hbusy]
        exact Or.inl ⟨_, rfl⟩
      rw [if_neg hnone, if_neg hbusy]
      rcases openEpoch_cases thread state with hopen | hopen
      · exact Or.inl ⟨_, hopen⟩
      · refine Or.inr ⟨_, _, hopen, rfl, .opened rfl rfl ?_ ?_⟩
        · intro other hother
          rw [howner] at hother
          cases hother
          have hsome : proof.isSome = true := by
            cases proof with
            | none => exact absurd rfl hnone
            | some => rfl
          exact ⟨hthread, by omega, by omega, hsome⟩
        · intro hproof
          exact absurd (by rw [hproof]; rfl) hnone
  next howner =>
    by_cases hforeign : proof.isNone = true ∧ state.latestProof.isSome = true
    · rw [if_pos hforeign]
      exact Or.inl ⟨_, rfl⟩
    rw [if_neg hforeign]
    rcases openEpoch_cases thread state with hopen | hopen
    · exact Or.inl ⟨_, hopen⟩
    · refine Or.inr ⟨_, _, hopen, rfl, .opened rfl rfl ?_ ?_⟩
      · intro other hother
        rw [howner] at hother
        cases hother
      · intro hproof
        rcases hlatest : state.latestProof with _ | _
        · rfl
        · exact absurd ⟨by rw [hproof]; rfl, by rw [hlatest]; rfl⟩ hforeign

variable (thread proof state) in
theorem beginClaimWithProof_cases :
    (∃ error, AffinityState.beginClaimWithProof thread proof state = (.error error, state)) ∨
      ∃ token next, AffinityState.beginClaimWithProof thread proof state = (.ok token, next) ∧
        AffinityState.isStale proof state = false ∧
        next.latestProof = proof.or state.latestProof ∧ Accepted thread proof state next token := by
  unfold AffinityState.beginClaimWithProof
  rcases hstale : AffinityState.isStale proof state with _ | _
  · rw [if_neg (by decide)]
    rcases claimToken_cases thread proof state with
      ⟨error, h⟩ | ⟨token, next, h, hlatest, haccepted⟩
    · rw [h]
      exact Or.inl ⟨error, rfl⟩
    · rw [h]
      refine Or.inr ⟨token, _, rfl, rfl, ?_, ?_⟩
      · dsimp only
        rw [hlatest]
      · cases haccepted with
        | joined owner hold hthread hnew hnext => exact .joined owner hold hthread hnew hnext
        | opened hnew hnext hold hproof => exact .opened hnew hnext hold hproof
  · rw [if_pos rfl]
    exact Or.inl ⟨_, rfl⟩

end Claims

/-- A handle of the current epoch takes its count back, and the last one ends the epoch. -/
inductive Released (kind : HandleKind) (owner : AffinityOwner) (state next : AffinityState) :
    Prop where
  | kept (howner : next.owner = some (owner.withCount (owner.count kind - 1) kind))
      (htoken : next.nextToken = state.nextToken) (hproof : next.latestProof = state.latestProof)
  | ended (howner : next.owner = none)
      (hlast : ∀ other, (owner.withCount (owner.count kind - 1) kind).count other = 0)
      (htoken : next.nextToken = state.nextToken) (hproof : next.latestProof = state.latestProof)

theorem release_current {kind : HandleKind} {owner : AffinityOwner} {state : AffinityState}
    (howner : state.owner = some owner) (hpos : owner.count kind ≠ 0) :
    Released kind owner state (state.release kind owner.thread owner.token) := by
  have hrelease : state.release kind owner.thread owner.token = AffinityState.clearReleasedOwner
      { state with owner := some (owner.withCount (owner.count kind - 1) kind) } := by
    unfold AffinityState.release
    rw [howner]
    dsimp only
    rw [if_pos ⟨rfl, rfl⟩, if_neg hpos]
  rw [hrelease]
  unfold AffinityState.clearReleasedOwner
  dsimp only
  split
  next hzero =>
    refine .ended rfl (fun other => ?_) rfl rfl
    cases other with
    | claim => exact hzero.1
    | lease => exact hzero.2.1
    | guard => exact hzero.2.2
  next => exact .kept rfl rfl rfl

theorem release_superseded {kind : HandleKind} {thread token : Nat} {state : AffinityState}
    (h : ∀ owner, state.owner = some owner → owner.epoch ≠ ⟨token, thread⟩) :
    state.release kind thread token = state := by
  unfold AffinityState.release
  split
  next owner howner =>
    rw [if_neg]
    rintro ⟨rfl, rfl⟩
    exact h owner howner rfl
  next => rfl

/-- A commit of a live claim of the current epoch moves it to a lease, and to a guard where one is
asked for, or leaves the claim to be dropped. -/
theorem commitInner_current (guarded : Bool) {owner : AffinityOwner} {state : AffinityState}
    (howner : state.owner = some owner) (hpos : owner.claims ≠ 0) :
    state.commitInner guarded owner.thread owner.token = (.refused .exhausted true, state) ∨
      state.commitInner guarded owner.thread owner.token = (.committed, { state with
        owner := some { owner with
          claims := owner.claims - 1
          leases := owner.leases + 1
          guards := owner.guards + if guarded then 1 else 0 } }) := by
  unfold AffinityState.commitInner
  rw [howner]
  dsimp only
  rw [if_pos ⟨rfl, rfl⟩, if_neg hpos]
  rcases hleases : checkedAdd owner.leases with _ | leases
  · exact Or.inl rfl
  obtain rfl := checkedAdd_eq_some hleases
  cases guarded with
  | false => exact Or.inr rfl
  | true =>
    rw [if_pos rfl]
    rcases hguards : checkedAdd owner.guards with _ | guards
    · exact Or.inl rfl
    · obtain rfl := checkedAdd_eq_some hguards
      exact Or.inr rfl

namespace AffinityWorld

/-- The counts are those of the live handles, every live claim and guard belongs to the current
epoch, and epochs and proofs are told apart by what was issued before. -/
structure Sound (world : AffinityWorld) : Prop where
  counted : ∀ owner, world.state.owner = some owner →
    ∀ kind, owner.count kind = world.live kind owner.token
  newest : ∀ owner, world.state.owner = some owner → world.epochs.head? = some owner.epoch
  opened : ∀ handle ∈ world.handles, handle.epoch ∈ world.epochs
  held : ∀ handle ∈ world.handles, handle.kind ≠ .lease →
    ∃ owner, world.state.owner = some owner ∧ handle.epoch = owner.epoch
  issued : ∀ epoch ∈ world.epochs, epoch.token ≤ world.state.nextToken
  tokens : (world.epochs.map Epoch.token).Nodup
  proofs : world.proofs.Pairwise fun later earlier => later.isStrictlyAfter earlier = true
  latest : world.state.latestProof = world.proofs.head?

theorem sound_start : Sound start where
  counted _ howner := by cases howner
  newest _ howner := by cases howner
  opened _ hhandle := by cases hhandle
  held _ hhandle := by cases hhandle
  issued _ hepoch := by cases hepoch
  tokens := List.nodup_nil
  proofs := List.Pairwise.nil
  latest := rfl

variable {handle : AffinityHandle}

theorem live_cons (world : AffinityWorld) {next : AffinityWorld}
    (h : next.handles = handle :: world.handles) (kind : HandleKind) (token : Nat) :
    next.live kind token = world.live kind token +
      if handle.carries kind token then 1 else 0 := by
  unfold live
  rw [h, List.countP_cons]

theorem live_erase {world : AffinityWorld} (h : handle ∈ world.handles) (kind : HandleKind)
    (token : Nat) :
    world.live kind token = (world.handles.erase handle).countP (·.carries kind token) +
      if handle.carries kind token then 1 else 0 := by
  unfold live
  rw [(List.perm_cons_erase h).countP_eq, List.countP_cons]

theorem carries_of_token {token : Nat} (h : handle.token = token) (kind : HandleKind) :
    handle.carries kind token = decide (handle.kind = kind) := by
  unfold AffinityHandle.carries
  simp [h]

section Steps

variable {world : AffinityWorld} {owner : AffinityOwner}

theorem Sound.absent (h : Sound world) (howner : world.state.owner = some owner)
    (kind : HandleKind) (hzero : owner.count kind = 0) {handle : AffinityHandle}
    (hhandle : handle ∈ world.handles) (hkind : handle.kind = kind) :
    handle.token ≠ owner.token := by
  intro htoken
  have hlive := h.counted owner howner kind
  rw [hzero] at hlive
  have hnone := List.countP_eq_zero.mp hlive.symm handle hhandle
  rw [carries_of_token htoken, hkind] at hnone
  simp at hnone

theorem Sound.not_busy (h : Sound world) (howner : world.state.owner = some owner)
    (hclaims : owner.claims = 0) (hguards : owner.guards = 0) {handle : AffinityHandle}
    (hhandle : handle ∈ world.handles) : handle.kind = .lease := by
  cases hkind : handle.kind with
  | lease => rfl
  | claim =>
    obtain ⟨_, hother, hepoch⟩ := h.held handle hhandle (by rw [hkind]; decide)
    rw [howner] at hother
    cases hother
    exact absurd (congrArg Epoch.token hepoch) (h.absent howner .claim hclaims hhandle hkind)
  | guard =>
    obtain ⟨_, hother, hepoch⟩ := h.held handle hhandle (by rw [hkind]; decide)
    rw [howner] at hother
    cases hother
    exact absurd (congrArg Epoch.token hepoch) (h.absent howner .guard hguards hhandle hkind)

theorem Sound.proofs_claimed (h : Sound world) {proof : Option AffinityProof}
    (hfresh : world.state.isStale proof = false) :
    (proof.toList ++ world.proofs).Pairwise fun later earlier =>
      later.isStrictlyAfter earlier = true := by
  cases proof with
  | none => exact h.proofs
  | some proof =>
    refine List.pairwise_cons.mpr ⟨fun earlier hearlier => ?_, h.proofs⟩
    rcases hproofs : world.proofs with _ | ⟨latest, _⟩
    · rw [hproofs] at hearlier
      cases hearlier
    · have hlatest : proof.isStrictlyAfter latest = true := by
        unfold AffinityState.isStale at hfresh
        rw [h.latest, hproofs] at hfresh
        simpa using hfresh
      rw [hproofs] at hearlier
      rcases List.mem_cons.mp hearlier with rfl | hrest
      · exact hlatest
      · have hpairs := h.proofs
        rw [hproofs] at hpairs
        have hafter := (List.pairwise_cons.mp hpairs).1 earlier hrest
        unfold AffinityProof.isStrictlyAfter at hlatest hafter ⊢
        simp only [decide_eq_true_eq] at hlatest hafter ⊢
        omega

theorem Sound.claimed (h : Sound world) {thread : Nat} {proof : Option AffinityProof} :
    Sound (world.claimed thread proof (AffinityState.beginClaimWithProof thread proof world.state)) := by
  rcases beginClaimWithProof_cases thread proof world.state with
    ⟨error, heq⟩ | ⟨token, next, heq, hfresh, hlatest, haccepted⟩
  · rw [heq]
    exact h
  rw [heq]
  have hproofs := h.proofs_claimed hfresh
  have hhead : next.latestProof = (proof.toList ++ world.proofs).head? := by
    rw [hlatest, h.latest]
    cases proof <;> rfl
  cases haccepted with
  | joined owner hold hthread hnew hnext =>
    have hsame : (AffinityWorld.claimed thread proof (.ok owner.token, next) world).epochs =
        world.epochs := by
      refine if_pos ?_
      rw [hold, ← hthread]
      rfl
    refine ⟨?_, ?_, ?_, ?_, ?_, ?_, hproofs, hhead⟩
    · intro other hother kind
      have hother' : next.owner = some other := hother
      rw [hnew] at hother'
      cases hother'
      rw [live_cons world rfl, ← h.counted owner hold kind]
      cases kind <;> simp [AffinityHandle.carries, AffinityOwner.count]
    · intro other hother
      have hother' : next.owner = some other := hother
      rw [hnew] at hother'
      cases hother'
      rw [hsame]
      exact h.newest owner hold
    · intro handle hhandle
      rw [hsame]
      rcases List.mem_cons.mp hhandle with rfl | hrest
      · rw [← hthread]
        exact List.mem_of_mem_head? (h.newest owner hold)
      · exact h.opened handle hrest
    · intro handle hhandle hkind
      refine ⟨_, hnew, ?_⟩
      rcases List.mem_cons.mp hhandle with rfl | hrest
      · rw [← hthread]
        rfl
      · obtain ⟨other, hother, hepoch⟩ := h.held handle hrest hkind
        rw [hold] at hother
        cases hother
        exact hepoch
    · intro epoch hepoch
      rw [hsame] at hepoch
      exact hnext ▸ h.issued epoch hepoch
    · rw [hsame]
      exact h.tokens
  | opened hnew hnext hold =>
    have hlt : ∀ epoch ∈ world.epochs, epoch.token < world.state.nextToken + 1 :=
      fun epoch hepoch => Nat.lt_succ_of_le (h.issued epoch hepoch)
    have hadded : (AffinityWorld.claimed thread proof (.ok (world.state.nextToken + 1), next)
        world).epochs = ⟨world.state.nextToken + 1, thread⟩ :: world.epochs := by
      refine if_neg fun hsame => ?_
      obtain ⟨owner, howner, hepoch⟩ := Option.map_eq_some_iff.mp hsame
      have htoken := hlt owner.epoch (List.mem_of_mem_head? (h.newest owner howner))
      rw [hepoch] at htoken
      exact Nat.lt_irrefl _ htoken
    have hleases : ∀ handle ∈ world.handles, handle.kind = .lease := by
      intro handle hhandle
      by_contra hkind
      obtain ⟨owner, howner, _⟩ := h.held handle hhandle hkind
      obtain ⟨_, hclaims, hguards, _⟩ := hold owner howner
      exact hkind (h.not_busy howner hclaims hguards hhandle)
    refine ⟨?_, ?_, ?_, ?_, ?_, ?_, hproofs, hhead⟩
    · intro other hother kind
      have hother' : next.owner = some other := hother
      rw [hnew] at hother'
      cases hother'
      have hnone : world.live kind (world.state.nextToken + 1) = 0 := by
        refine List.countP_eq_zero.mpr fun handle hhandle hcarries => ?_
        have htoken : handle.token = world.state.nextToken + 1 :=
          (of_decide_eq_true hcarries).2
        have := hlt handle.epoch (h.opened handle hhandle)
        exact Nat.lt_irrefl _ (htoken ▸ this)
      rw [live_cons world rfl, hnone]
      cases kind <;> simp [AffinityHandle.carries, AffinityOwner.count]
    · intro other hother
      have hother' : next.owner = some other := hother
      rw [hnew] at hother'
      cases hother'
      rw [hadded]
      rfl
    · intro handle hhandle
      rw [hadded]
      rcases List.mem_cons.mp hhandle with rfl | hrest
      · exact List.mem_cons_self
      · exact List.mem_cons_of_mem _ (h.opened handle hrest)
    · intro handle hhandle hkind
      rcases List.mem_cons.mp hhandle with rfl | hrest
      · exact ⟨_, hnew, rfl⟩
      · exact absurd (hleases handle hrest) hkind
    · intro epoch hepoch
      have hle : epoch.token ≤ world.state.nextToken + 1 := by
        rw [hadded] at hepoch
        rcases List.mem_cons.mp hepoch with rfl | hrest
        · exact Nat.le_refl _
        · exact Nat.le_of_lt (hlt epoch hrest)
      exact hnext ▸ hle
    · rw [hadded, List.map_cons]
      refine List.nodup_cons.mpr ⟨fun hmem => ?_, h.tokens⟩
      obtain ⟨epoch, hepoch, htoken⟩ := List.mem_map.mp hmem
      exact absurd htoken (Nat.ne_of_lt (hlt epoch hepoch))

theorem Sound.erased (h : Sound world) {handle : AffinityHandle}
    (hhandle : handle ∈ world.handles) (howner : world.state.owner = some owner)
    (kind : HandleKind) :
    owner.count kind = (world.handles.erase handle).countP (·.carries kind owner.token) +
      if handle.carries kind owner.token then 1 else 0 := by
  rw [h.counted owner howner kind]
  exact live_erase hhandle kind owner.token

variable {claim : AffinityHandle}

theorem Sound.claim_current (h : Sound world) (hclaim : claim ∈ world.handles)
    (hkind : claim.kind = .claim) :
    ∃ owner, world.state.owner = some owner ∧ claim.epoch = owner.epoch ∧ owner.claims ≠ 0 := by
  obtain ⟨owner, howner, hepoch⟩ := h.held claim hclaim (by rw [hkind]; decide)
  refine ⟨owner, howner, hepoch, fun hzero => ?_⟩
  exact h.absent howner .claim hzero hclaim hkind (congrArg Epoch.token hepoch)

theorem committed_cases (guarded : Bool) (howner : world.state.owner = some owner)
    (hepoch : claim.epoch = owner.epoch) (hpos : owner.claims ≠ 0) :
    world.committed guarded claim = { world with
        handles := { claim with failed := true } :: world.handles.erase claim } ∨
      world.committed guarded claim = { world with
        state := { world.state with
          owner := some { owner with
            claims := owner.claims - 1
            leases := owner.leases + 1
            guards := owner.guards + if guarded then 1 else 0 } }
        handles := granted guarded claim ++ world.handles.erase claim } := by
  have hsame : world.state.commitInner guarded claim.thread claim.token =
      world.state.commitInner guarded owner.thread owner.token := by
    rw [show claim.thread = owner.thread from congrArg Epoch.thread hepoch,
      show claim.token = owner.token from congrArg Epoch.token hepoch]
  unfold AffinityWorld.committed
  rw [hsame]
  rcases commitInner_current guarded howner hpos with hcommit | hcommit
  · left
    rw [hcommit]
    rfl
  · right
    rw [hcommit]

theorem epoch_granted {guarded : Bool} {handle : AffinityHandle}
    (h : handle ∈ granted guarded claim) : handle.epoch = claim.epoch := by
  cases guarded with
  | false =>
    rw [List.mem_singleton.mp h]
    rfl
  | true =>
    rcases List.mem_cons.mp h with rfl | hguard
    · rfl
    · rw [List.mem_singleton.mp hguard]
      rfl

theorem Sound.committed (h : Sound world) {guarded : Bool} {claim : AffinityHandle}
    (hclaim : claim ∈ world.handles) (hkind : claim.kind = .claim) :
    Sound (world.committed guarded claim) := by
  obtain ⟨owner, howner, hepoch, hpos⟩ := h.claim_current hclaim hkind
  have htoken : claim.token = owner.token := congrArg Epoch.token hepoch
  have hrest : ∀ handle ∈ world.handles.erase claim, handle ∈ world.handles :=
    fun _ => List.mem_of_mem_erase
  rcases committed_cases guarded howner hepoch hpos with hcommit | hcommit
  · rw [hcommit]
    refine ⟨?_, h.newest, ?_, ?_, h.issued, h.tokens, h.proofs, h.latest⟩
    · intro other hother kind
      have hother' : world.state.owner = some other := hother
      rw [howner] at hother'
      cases hother'
      rw [h.erased hclaim howner kind]
      unfold live
      dsimp only
      rw [List.countP_cons]
      rfl
    · intro handle hhandle
      rcases List.mem_cons.mp hhandle with rfl | hother
      · exact h.opened claim hclaim
      · exact h.opened handle (hrest handle hother)
    · intro handle hhandle hlease
      rcases List.mem_cons.mp hhandle with rfl | hother
      · exact ⟨owner, howner, hepoch⟩
      · exact h.held handle (hrest handle hother) hlease
  · rw [hcommit]
    refine ⟨?_, ?_, ?_, ?_, h.issued, h.tokens, h.proofs, h.latest⟩
    · intro other hother kind
      cases hother
      have hcount := h.erased hclaim howner kind
      unfold live
      dsimp only
      rw [List.countP_append]
      cases guarded <;> cases kind <;>
        simp [granted, AffinityHandle.carries, AffinityOwner.count, hkind, htoken] at hcount ⊢ <;>
        omega
    · intro other hother
      cases hother
      exact h.newest owner howner
    · intro handle hhandle
      rcases List.mem_append.mp hhandle with hnew | hother
      · rw [epoch_granted hnew]
        exact h.opened claim hclaim
      · exact h.opened handle (hrest handle hother)
    · intro handle hhandle hlease
      refine ⟨_, rfl, ?_⟩
      rcases List.mem_append.mp hhandle with hnew | hother
      · exact (epoch_granted hnew).trans hepoch
      · obtain ⟨other, hcurrent, hsame⟩ := h.held handle (hrest handle hother) hlease
        rw [howner] at hcurrent
        cases hcurrent
        exact hsame

theorem Sound.epoch_of_token (h : Sound world) {handle : AffinityHandle}
    (hhandle : handle ∈ world.handles) (howner : world.state.owner = some owner)
    (htoken : handle.token = owner.token) : handle.epoch = owner.epoch :=
  List.inj_on_of_nodup_map h.tokens (h.opened handle hhandle)
    (List.mem_of_mem_head? (h.newest owner howner)) htoken

theorem dropped_superseded {handle : AffinityHandle}
    (hold : ∀ owner, world.state.owner = some owner → handle.token ≠ owner.token) :
    (world.dropped handle).state = world.state := by
  show handle.drop world.state = world.state
  rw [AffinityHandle.drop_eq]
  refine release_superseded fun owner howner hepoch => ?_
  exact hold owner howner (congrArg Epoch.token hepoch).symm

theorem Sound.dropped (h : Sound world) {handle : AffinityHandle}
    (hhandle : handle ∈ world.handles) : Sound (world.dropped handle) := by
  have hrest : ∀ other ∈ world.handles.erase handle, other ∈ world.handles :=
    fun _ => List.mem_of_mem_erase
  by_cases hcurrent : ∃ owner, world.state.owner = some owner ∧ handle.token = owner.token
  · obtain ⟨owner, howner, htoken⟩ := hcurrent
    have hepoch := h.epoch_of_token hhandle howner htoken
    have hthread : handle.thread = owner.thread := congrArg Epoch.thread hepoch
    have hcount (kind : HandleKind) :
        (owner.withCount (owner.count handle.kind - 1) handle.kind).count kind =
          (world.handles.erase handle).countP (·.carries kind owner.token) := by
      have herased := h.erased hhandle howner kind
      rw [carries_of_token htoken] at herased
      rw [AffinityOwner.count_withCount]
      by_cases hkind : kind = handle.kind
      · subst hkind
        rw [if_pos rfl]
        simp at herased
        omega
      · rw [if_neg hkind]
        simp [Ne.symm hkind] at herased
        exact herased
    have hpos : owner.count handle.kind ≠ 0 := fun hzero =>
      h.absent howner handle.kind hzero hhandle rfl htoken
    have hreleased := release_current howner hpos
    rw [← htoken, ← hthread, ← AffinityHandle.drop_eq] at hreleased
    cases hreleased with
    | kept hnext hissued hproof =>
      refine ⟨?_, ?_, ?_, ?_, ?_, h.tokens, h.proofs, hproof.trans h.latest⟩
      · intro other hother kind
        have hother' : (handle.drop world.state).owner = some other := hother
        rw [hnext] at hother'
        cases hother'
        rw [AffinityOwner.withCount_token]
        exact hcount kind
      · intro other hother
        have hother' : (handle.drop world.state).owner = some other := hother
        rw [hnext] at hother'
        cases hother'
        unfold AffinityOwner.epoch
        rw [AffinityOwner.withCount_token, AffinityOwner.withCount_thread]
        exact h.newest owner howner
      · exact fun other hother => h.opened other (hrest other hother)
      · intro other hother hlease
        obtain ⟨current, hsome, hsame⟩ := h.held other (hrest other hother) hlease
        rw [howner] at hsome
        cases hsome
        refine ⟨_, hnext, hsame.trans ?_⟩
        unfold AffinityOwner.epoch
        rw [AffinityOwner.withCount_token, AffinityOwner.withCount_thread]
      · exact fun epoch hmem => hissued ▸ h.issued epoch hmem
    | ended hnext hlast hissued hproof =>
      refine ⟨?_, ?_, ?_, ?_, ?_, h.tokens, h.proofs, hproof.trans h.latest⟩
      · intro other hother
        have hother' : (handle.drop world.state).owner = some other := hother
        rw [hnext] at hother'
        cases hother'
      · intro other hother
        have hother' : (handle.drop world.state).owner = some other := hother
        rw [hnext] at hother'
        cases hother'
      · exact fun other hother => h.opened other (hrest other hother)
      · intro other hother hlease
        obtain ⟨current, hsome, hsame⟩ := h.held other (hrest other hother) hlease
        rw [howner] at hsome
        cases hsome
        have hnone := (hcount other.kind).symm.trans (hlast other.kind)
        have hcarries := List.countP_eq_zero.mp hnone other hother
        have hcurrentToken : other.token = owner.token := congrArg Epoch.token hsame
        rw [carries_of_token hcurrentToken] at hcarries
        simp at hcarries
      · exact fun epoch hmem => hissued ▸ h.issued epoch hmem
  · have hsame := dropped_superseded fun owner howner htoken =>
      hcurrent ⟨owner, howner, htoken⟩
    refine ⟨?_, ?_, fun other hother => h.opened other (hrest other hother), ?_, ?_, h.tokens,
      h.proofs, ?_⟩
    · intro owner howner kind
      rw [hsame] at howner
      have herased := h.erased hhandle howner kind
      have hother : handle.carries kind owner.token = false := by
        unfold AffinityHandle.carries
        have htoken : handle.token ≠ owner.token := fun htoken => hcurrent ⟨owner, howner, htoken⟩
        simp [htoken]
      rw [hother] at herased
      exact herased
    · intro owner howner
      rw [hsame] at howner
      exact h.newest owner howner
    · intro other hother hlease
      rw [hsame]
      exact h.held other (hrest other hother) hlease
    · intro epoch hmem
      rw [hsame]
      exact h.issued epoch hmem
    · rw [hsame]
      exact h.latest

theorem Sound.step (h : Sound world) {action : AffinityAction} {next : AffinityWorld}
    (hstep : world.step action = some next) : Sound next := by
  cases action with
  | beginClaim | beginPresentClaim =>
    cases hstep
    exact h.claimed
  | commit | commitGuarded =>
    obtain ⟨⟨hclaim, hkind, _⟩, hnext⟩ := Option.ite_none_right_eq_some.mp hstep
    cases hnext
    exact h.committed hclaim hkind
  | drop =>
    obtain ⟨hhandle, hnext⟩ := Option.ite_none_right_eq_some.mp hstep
    cases hnext
    exact h.dropped hhandle

end Steps

theorem sound_run {actions : List AffinityAction} {world : AffinityWorld}
    (h : StepRuns.runSteps step start actions = some world) : Sound world :=
  StepRuns.runSteps_invariant (fun _ _ _ hstep hsound => hsound.step hstep) h sound_start

/-- A claim of the thread with a proof that is after every accepted one. -/
def Newer (world : AffinityWorld) (action : AffinityAction) (thread : Nat) : Prop :=
  ∃ proof, action = .beginPresentClaim thread proof ∧
    ∀ earlier ∈ world.proofs, proof.isStrictlyAfter earlier = true

def attempt (world : AffinityWorld) : AffinityAction → Option (Except AffinityClaimError Nat)
  | .beginClaim thread => some (world.state.beginClaim thread).1
  | .beginPresentClaim thread proof => some (world.state.beginPresentClaim thread proof).1
  | _ => none

/-- How a step may change the owner and what it must leave. -/
structure Orderly (world : AffinityWorld) (action : AffinityAction) (next : AffinityWorld) :
    Prop where
  handover : ∀ old new, world.state.owner = some old → next.state.owner = some new →
    new.thread ≠ old.thread → world.live .claim old.token = 0 ∧ world.live .guard old.token = 0 ∧
      Newer world action new.thread
  reopened : ∀ new, world.state.owner = none → next.state.owner = some new →
    world.proofs ≠ [] → Newer world action new.thread
  superseded : ∀ handle, action = .drop handle →
    (∀ owner, world.state.owner = some owner → handle.token ≠ owner.token) →
      next.state = world.state
  refused : ∀ error, world.attempt action = some (.error error) → next = world

section Orders

variable {world : AffinityWorld}

theorem Sound.after_all (h : Sound world) {proof : AffinityProof}
    (hfresh : world.state.isStale (some proof) = false) :
    ∀ earlier ∈ world.proofs, proof.isStrictlyAfter earlier = true :=
  (List.pairwise_cons.mp (h.proofs_claimed hfresh)).1

variable {action : AffinityAction}

theorem Sound.orderly_claimed (h : Sound world) {thread : Nat} {proof : Option AffinityProof}
    (hproof : ∀ given, proof = some given → action = .beginPresentClaim thread given)
    (hattempt : world.attempt action =
      some (AffinityState.beginClaimWithProof thread proof world.state).1)
    (hdrop : ∀ handle, action ≠ .drop handle) :
    Orderly world action (world.claimed thread proof
      (AffinityState.beginClaimWithProof thread proof world.state)) := by
  rcases beginClaimWithProof_cases thread proof world.state with
    ⟨error, heq⟩ | ⟨token, next, heq, hfresh, _, haccepted⟩
  · rw [heq]
    refine ⟨fun old new hold hnew hne => ?_, fun new hold hnew _ => ?_, fun handle hact => ?_,
      fun _ _ => rfl⟩
    · have hsame : some old = some new := hold.symm.trans hnew
      cases hsame
      exact absurd rfl hne
    · have hsame : none = some new := hold.symm.trans hnew
      cases hsame
    · exact absurd hact (hdrop handle)
  rw [heq] at hattempt
  rw [heq]
  have hnewer (hsome : proof.isSome = true) : Newer world action thread := by
    obtain ⟨given, rfl⟩ := Option.isSome_iff_exists.mp hsome
    exact ⟨given, hproof given rfl, h.after_all hfresh⟩
  refine ⟨fun old new hold hnew hne => ?_, fun new hnone hnew hproofs => ?_, fun handle hact => ?_,
    fun error herror => ?_⟩
  · have hnext : next.owner = some new := hnew
    cases haccepted with
    | joined _ howner _ howner' =>
      rw [hold] at howner
      cases howner
      rw [howner'] at hnext
      cases hnext
      exact absurd rfl hne
    | opened howner' _ hdormant =>
      rw [howner'] at hnext
      cases hnext
      obtain ⟨_, hclaims, hguards, hsome⟩ := hdormant old hold
      exact ⟨(h.counted old hold .claim).symm.trans hclaims,
        (h.counted old hold .guard).symm.trans hguards, hnewer hsome⟩
  · have hnext : next.owner = some new := hnew
    cases haccepted with
    | joined _ howner =>
      rw [hnone] at howner
      cases howner
    | opened howner' _ _ hunproved =>
      rw [howner'] at hnext
      cases hnext
      refine hnewer ?_
      cases hgiven : proof with
      | some => rfl
      | none =>
        have hlatest := hunproved hgiven
        rw [h.latest, List.head?_eq_none_iff] at hlatest
        exact absurd hlatest hproofs
  · exact absurd hact (hdrop handle)
  · rw [herror] at hattempt
    cases hattempt

theorem orderly_of_kept {next : AffinityWorld} (hthread : ∀ new, next.state.owner = some new →
      ∃ old, world.state.owner = some old ∧ old.thread = new.thread)
    (hsuperseded : ∀ handle, action = .drop handle →
      (∀ owner, world.state.owner = some owner → handle.token ≠ owner.token) →
      next.state = world.state) (hattempt : world.attempt action = none) :
    Orderly world action next where
  handover old new hold hnew hne := by
    obtain ⟨owner, howner, hsame⟩ := hthread new hnew
    rw [hold] at howner
    cases howner
    exact absurd hsame.symm hne
  reopened new hnone hnew _ := by
    obtain ⟨owner, howner, _⟩ := hthread new hnew
    rw [hnone] at howner
    cases howner
  superseded := hsuperseded
  refused error herror := by
    rw [hattempt] at herror
    cases herror

theorem Sound.orderly_committed (h : Sound world) (guarded : Bool) {claim : AffinityHandle}
    (hclaim : claim ∈ world.handles) (hkind : claim.kind = .claim)
    (hattempt : world.attempt action = none) (hdrop : ∀ handle, action ≠ .drop handle) :
    Orderly world action (world.committed guarded claim) := by
  refine orderly_of_kept (fun new hnew => ?_) (fun handle hact => absurd hact (hdrop handle)) hattempt
  obtain ⟨owner, howner, hepoch, hpos⟩ := h.claim_current hclaim hkind
  rcases committed_cases guarded howner hepoch hpos with hcommit | hcommit
  · rw [hcommit] at hnew
    exact ⟨new, hnew, rfl⟩
  · rw [hcommit] at hnew
    cases hnew
    exact ⟨owner, howner, rfl⟩

theorem Sound.orderly_dropped (h : Sound world) {handle : AffinityHandle}
    (hhandle : handle ∈ world.handles) :
    Orderly world (.drop handle) (world.dropped handle) := by
  refine orderly_of_kept (fun new hnew => ?_) (fun other hact hold => ?_) rfl
  · by_cases hcurrent : ∃ owner, world.state.owner = some owner ∧ handle.token = owner.token
    · obtain ⟨owner, howner, htoken⟩ := hcurrent
      have hepoch := h.epoch_of_token hhandle howner htoken
      have hthread : handle.thread = owner.thread := congrArg Epoch.thread hepoch
      have hpos : owner.count handle.kind ≠ 0 := fun hzero =>
        h.absent howner handle.kind hzero hhandle rfl htoken
      have hreleased := release_current howner hpos
      rw [← htoken, ← hthread, ← AffinityHandle.drop_eq] at hreleased
      have hnew' : (handle.drop world.state).owner = some new := hnew
      cases hreleased with
      | kept hnext =>
        rw [hnext] at hnew'
        cases hnew'
        exact ⟨owner, howner, (AffinityOwner.withCount_thread ..).symm⟩
      | ended hnext =>
        rw [hnext] at hnew'
        cases hnew'
    · rw [dropped_superseded fun owner howner htoken => hcurrent ⟨owner, howner, htoken⟩] at hnew
      exact ⟨new, hnew, rfl⟩
  · cases hact
    exact dropped_superseded hold

theorem Sound.orderly (h : Sound world) {next : AffinityWorld}
    (hstep : world.step action = some next) : Orderly world action next := by
  cases action with
  | beginClaim =>
    cases hstep
    exact h.orderly_claimed (fun _ hgiven => by cases hgiven) rfl fun _ hact => by cases hact
  | beginPresentClaim =>
    cases hstep
    exact h.orderly_claimed (fun _ hgiven => by cases hgiven; rfl) rfl fun _ hact => by cases hact
  | commit =>
    obtain ⟨⟨hclaim, hkind, _⟩, hnext⟩ := Option.ite_none_right_eq_some.mp hstep
    cases hnext
    exact h.orderly_committed false hclaim hkind rfl fun _ hact => by cases hact
  | commitGuarded =>
    obtain ⟨⟨hclaim, hkind, _⟩, hnext⟩ := Option.ite_none_right_eq_some.mp hstep
    cases hnext
    exact h.orderly_committed true hclaim hkind rfl fun _ hact => by cases hact
  | drop =>
    obtain ⟨hhandle, hnext⟩ := Option.ite_none_right_eq_some.mp hstep
    cases hnext
    exact h.orderly_dropped hhandle

end Orders

/-- One epoch owns the affinity, its counts are those of its live handles, its token was never used
before, and each step keeps the order of the proofs. -/
theorem affinity_owned_once {actions : List AffinityAction} {world : AffinityWorld}
    (h : StepRuns.runSteps step start actions = some world) :
    (∀ owner, world.state.owner = some owner →
      ∀ kind, owner.count kind = world.live kind owner.token) ∧
    (∀ handle ∈ world.handles, handle.kind ≠ .lease →
      ∃ owner, world.state.owner = some owner ∧ handle.epoch = owner.epoch) ∧
    (∀ handle ∈ world.handles, handle.epoch ∈ world.epochs) ∧
    (world.epochs.map Epoch.token).Nodup ∧
    (world.proofs.Pairwise fun later earlier =>
      earlier.presentSequence < later.presentSequence ∧ earlier.generation ≤ later.generation) ∧
    ∀ action next, world.step action = some next → Orderly world action next := by
  have hsound := sound_run h
  refine ⟨hsound.counted, hsound.held, hsound.opened, hsound.tokens, ?_, fun _ _ => hsound.orderly⟩
  refine hsound.proofs.imp fun {later earlier} hafter => ?_
  obtain ⟨hgeneration, hsequence⟩ := of_decide_eq_true hafter
  exact ⟨hsequence, hgeneration⟩

/-- A newer Present on another thread takes over while the old lease is still alive. -/
def rotation : List AffinityAction :=
  [.beginPresentClaim 1 ⟨3, 10⟩, .commitGuarded ⟨.claim, 1, 1, false⟩,
    .drop ⟨.guard, 1, 1, false⟩, .beginPresentClaim 2 ⟨3, 11⟩, .drop ⟨.lease, 1, 1, false⟩]

theorem rotation_owned_once : ∃ world, StepRuns.runSteps step start rotation = some world ∧
    world.state.owner = some ⟨2, 2, 1, 0, 0⟩ ∧ world.live .claim 2 = 1 ∧
    (world.epochs.map Epoch.token).Nodup := by
  obtain ⟨world, hrun⟩ := Option.isSome_iff_exists.mp
    (rfl : (StepRuns.runSteps step start rotation).isSome = true)
  have howner : world.state.owner = some ⟨2, 2, 1, 0, 0⟩ := by
    have hsome : (StepRuns.runSteps step start rotation).map (·.state.owner) =
        some (some ⟨2, 2, 1, 0, 0⟩) := rfl
    rw [hrun] at hsome
    exact Option.some.inj hsome
  obtain ⟨hcounted, _, _, htokens, _, _⟩ := affinity_owned_once hrun
  exact ⟨world, hrun, howner, (hcounted _ howner .claim).symm, htokens⟩

end AffinityWorld

end Nexus.Overlay
