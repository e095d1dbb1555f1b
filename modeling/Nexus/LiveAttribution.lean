import Nexus.AddressAttribution
import Nexus.CallerAttribution
import Mathlib.Data.List.Induction

namespace Nexus

namespace IndexRun

open AddressOwnershipIndex

variable {run : IndexRun} {calls : List IndexCall} {owner : OwnerToken} {first last : Nat}

/-- The calls inserted the generation for the range and have neither closed nor retired it since. -/
def Admitted (run : IndexRun) (calls : List IndexCall) (owner : OwnerToken) (first last : Nat) :
    Prop :=
  ∃ before later size gate index, calls = before ++ .publish owner first size gate :: later ∧
    last = first + size ∧
    (run.after before).index.publish owner first size gate = .ok (.inserted, index) ∧
    .close owner ∉ later ∧ .retire owner ∉ later

theorem Admitted.concat (h : run.Admitted calls owner first last) {call : IndexCall}
    (hopen : call ≠ .close owner) (hkept : call ≠ .retire owner) :
    run.Admitted (calls ++ [call]) owner first last := by
  obtain ⟨before, later, size, gate, index, rfl, hlast, hinserted, hclose, hretire⟩ := h
  refine ⟨before, later ++ [call], size, gate, index, by simp, hlast, hinserted, ?_, ?_⟩
  · simpa using ⟨hclose, hopen.symm⟩
  · simpa using ⟨hretire, hkept.symm⟩

theorem admitted_of_entry (shared : Shared) (calls : List IndexCall) {entry : MappedRange}
    (hentry : ((start shared).after calls).index.entryOf owner = some entry)
    (haccepting : entry.accepting = true) :
    (start shared).Admitted calls owner entry.start entry.stop := by
  induction calls using List.reverseRecOn generalizing entry with
  | nil => cases hentry
  | append_singleton calls call ih =>
    have hs := (sound_start shared).after calls
    have hstep : (start shared).after (calls ++ [call]) = ((start shared).after calls).step call :=
      List.foldl_concat ..
    rw [hstep] at hentry
    cases call with
    | publish other low size gate =>
      simp only [IndexRun.step] at hentry
      rcases hp : ((start shared).after calls).index.publish other low size gate with _ | ⟨result, index⟩
      · rw [hp] at hentry
        exact (ih hentry haccepting).concat (by simp) (by simp)
      rw [hp] at hentry
      have hafter : index.entryOf owner = some entry := by cases result <;> exact hentry
      rw [entryOf_publish hp] at hafter
      split at hafter
      next hnew =>
        obtain ⟨rfl, rfl⟩ := hnew
        cases hafter
        exact ⟨calls, [], size, gate, index, rfl, rfl, hp, List.not_mem_nil, List.not_mem_nil⟩
      next => exact (ih hafter haccepting).concat (by simp) (by simp)
    | close other =>
      simp only [IndexRun.step] at hentry
      rw [entryOf_close hs.wellFormed] at hentry
      obtain ⟨before, hbefore, hmapped⟩ := Option.map_eq_some_iff.mp hentry
      split at hmapped
      next =>
        subst hmapped
        cases haccepting
      next hne =>
        subst hmapped
        refine (ih hbefore haccepting).concat (fun hcall => hne ?_) (by simp)
        rw [(entryOf_mem hbefore).2, IndexCall.close.inj hcall]
    | retire other =>
      simp only [IndexRun.step] at hentry
      rw [entryOf_retire] at hentry
      split at hentry
      next => cases hentry
      next hne =>
        exact (ih hentry haccepting).concat (by simp)
          fun hcall => hne (IndexCall.retire.inj hcall).symm

theorem admitted_of_current (shared : Shared) (calls : List IndexCall)
    (h : ((start shared).after calls).index.isCurrentOwner owner = true) :
    ∃ first last, (start shared).Admitted calls owner first last ∧
      ((start shared).after calls).published owner = some (first, last) := by
  have hs := (sound_start shared).after calls
  rw [isCurrentOwner_eq hs.wellFormed, Option.any_eq_true] at h
  obtain ⟨entry, hentry, haccepting⟩ := h
  refine ⟨entry.start, entry.stop, admitted_of_entry shared calls hentry haccepting, ?_⟩
  rw [← hs.ranges, hentry]
  rfl

/-- The index as the ownership authority of a resolver. -/
def resolver (run : IndexRun) (panics : Nat → Bool) : Caller.AddressOwnerResolver where
  owners := run.index.ownerForAddress
  current := run.index.isCurrentOwner
  panics := panics

end IndexRun

namespace Caller

def resolveInner (resolver : AddressOwnerResolver) (scopes : Option ScopeStack)
    (capture : Option StackCapture) (functionHint : Option Nat) :
    Fallible (List Answer) Unit (Option OwnerToken) :=
  match functionHint with
  | none => resolveActualInner resolver scopes capture
  | some address => do
    match ← validatedAddress resolver address with
    | some owner => pure (some owner)
    | none => resolveActualInner resolver scopes capture

def resolve (resolver : AddressOwnerResolver) (scopes : Option ScopeStack)
    (capture : Option StackCapture) (functionHint : Option Nat) : Option OwnerToken × List Answer :=
  let outcome := resolveInner resolver scopes capture functionHint []
  (contained outcome.1, outcome.2)

def addressBelongsToOwner (resolver : AddressOwnerResolver) (address : Nat) (owner : OwnerToken) :
    Bool :=
  contained (validatedAddress resolver address []).1 = some owner

def retainedAddressAllowed (resolver : AddressOwnerResolver) (address : Nat) (owner : OwnerToken) :
    Fallible (List Answer) Unit Bool := do
  if ← ownerIsCurrent resolver owner then
    match ← ownerForAddress resolver address with
    | some mapped => pure (mapped = owner)
    | none => pure true
  else pure false

def retainedAddressAllowedForOwner (resolver : AddressOwnerResolver) (address : Nat)
    (owner : OwnerToken) : Bool :=
  match (retainedAddressAllowed resolver address owner []).1 with
  | .ok allowed => allowed
  | .error () => false

/-- Whatever the code returns satisfies `p`. -/
def Yields {α : Type} (p : α → Prop) (x : Fallible (List Answer) Unit α) : Prop :=
  ∀ log value after, x log = (.ok value, after) → p value

section Yielding

variable {α β : Type} {resolver : AddressOwnerResolver}

theorem yields_bind {p : α → Prop} {q : β → Prop} {x : Fallible (List Answer) Unit α}
    {f : α → Fallible (List Answer) Unit β} (hx : Yields p x)
    (hf : ∀ value, p value → Yields q (f value)) : Yields q (x >>= f) := by
  intro log value after h
  rcases hrun : x log with ⟨_ | found, middle⟩
  · rw [Fallible.bind_of_error hrun] at h
    cases h
  · rw [Fallible.bind_of_ok hrun] at h
    exact hf found (hx log found middle hrun) middle value after h

theorem yields_pure {p : α → Prop} {value : α} (h : p value) : Yields p (pure value) := by
  intro _ _ _ hrun
  cases hrun
  exact h

theorem yields_ask {answer : Answer} {value : α} :
    Yields (fun found => found = value) (ask resolver answer value) := by
  intro log found after h
  unfold ask at h
  split at h
  · cases h
  · cases h
    rfl

theorem yields_validatedAddress (address : Nat) :
    Yields (fun found => ∀ owner ∈ found, resolver.owners address = some owner ∧
      resolver.current owner = true) (validatedAddress resolver address) := by
  refine yields_bind yields_ask fun mapped hmapped => ?_
  cases mapped with
  | none => exact yields_pure nofun
  | some owner =>
    refine yields_bind yields_ask fun isCurrent hcurrent => ?_
    cases isCurrent with
    | false => exact yields_pure nofun
    | true =>
      refine yields_pure fun found hfound => ?_
      cases hfound
      exact ⟨hmapped.symm, hcurrent.symm⟩

/-- Whoever is found is current. -/
def FindsCurrent (resolver : AddressOwnerResolver)
    (x : Fallible (List Answer) Unit (Option OwnerToken)) : Prop :=
  Yields (fun found => ∀ owner ∈ found, resolver.current owner = true) x

theorem findsCurrent_validated {address : Nat}
    {other : Fallible (List Answer) Unit (Option OwnerToken)} (h : FindsCurrent resolver other) :
    FindsCurrent resolver (validatedAddress resolver address >>= fun found =>
      match found with
      | some owner => pure (some owner)
      | none => other) := by
  refine yields_bind (yields_validatedAddress address) fun found hfound => ?_
  cases found with
  | none => exact h
  | some => exact yields_pure fun owner howner => (hfound owner howner).2

theorem findsCurrent_resolveFrames (frames : List Nat) :
    FindsCurrent resolver (resolveFrames resolver frames) := by
  induction frames with
  | nil => exact yields_pure nofun
  | cons frame _ ih =>
    unfold resolveFrames
    split
    · exact ih
    · exact findsCurrent_validated ih

theorem findsCurrent_resolveActualInner (scopes : Option ScopeStack)
    (capture : Option StackCapture) :
    FindsCurrent resolver (resolveActualInner resolver scopes capture) := by
  have hstack : FindsCurrent resolver (resolveStack resolver capture) := by
    cases capture with
    | none => exact nofun
    | some captured => exact findsCurrent_resolveFrames captured.frames
  have hscoped : Yields (fun _ => True) (currentScopedOwner scopes) := fun _ _ _ _ => trivial
  refine yields_bind hscoped fun found _ => ?_
  cases found with
  | none => exact hstack
  | some owner =>
    refine yields_bind yields_ask fun isCurrent hcurrent => ?_
    cases isCurrent with
    | false => exact hstack
    | true =>
      refine yields_pure fun other hother => ?_
      cases hother
      exact hcurrent.symm

theorem Yields.contained {p : OwnerToken → Prop}
    {x : Fallible (List Answer) Unit (Option OwnerToken)}
    (h : Yields (fun found => ∀ owner ∈ found, p owner) x) {owner : OwnerToken}
    (hfound : Caller.contained (x []).1 = some owner) : p owner :=
  h [] (some owner) (x []).2 (Prod.ext (contained_eq_some.mp hfound) rfl) owner rfl

theorem findsCurrent_resolveInner (scopes : Option ScopeStack) (capture : Option StackCapture)
    (functionHint : Option Nat) :
    FindsCurrent resolver (resolveInner resolver scopes capture functionHint) := by
  cases functionHint with
  | none => exact findsCurrent_resolveActualInner scopes capture
  | some => exact findsCurrent_validated (findsCurrent_resolveActualInner scopes capture)

theorem retainedAddressAllowedForOwner_current {address : Nat} {owner : OwnerToken}
    (h : retainedAddressAllowedForOwner resolver address owner = true) :
    resolver.current owner = true ∧
      ∀ mapped, resolver.owners address = some mapped → mapped = owner := by
  have hyields : Yields (fun allowed => allowed = true → resolver.current owner = true ∧
      ∀ mapped, resolver.owners address = some mapped → mapped = owner)
      (retainedAddressAllowed resolver address owner) := by
    refine yields_bind yields_ask fun isCurrent hcurrent => ?_
    cases isCurrent with
    | false => exact yields_pure nofun
    | true =>
      refine yields_bind yields_ask fun found hfound => ?_
      rw [← hfound]
      cases found with
      | none => exact yields_pure fun _ => ⟨hcurrent.symm, nofun⟩
      | some mapped =>
        refine yields_pure fun hsame => ⟨hcurrent.symm, fun other hother => ?_⟩
        cases hother
        exact of_decide_eq_true hsame
  unfold retainedAddressAllowedForOwner at h
  split at h
  next hallowed => exact hyields [] _ _ (Prod.ext hallowed rfl) h
  next => cases h

end Yielding

/-- Whoever the resolver names was published and neither closed nor retired since, and an address
that it grants lies in no range of another generation. -/
theorem attribution_names_admitted (shared : Shared) (calls : List IndexCall) (panics : Nat → Bool) :
    let run := (IndexRun.start shared).after calls
    let resolver := run.resolver panics
    let admitted := (IndexRun.start shared).Admitted calls
    (∀ scopes capture functionHint owner,
      (resolve resolver scopes capture functionHint).1 = some owner →
        ∃ first last, admitted owner first last) ∧
      (∀ scopes capture address owner,
        (resolveRegisteredAddress resolver scopes capture address).1 = some owner ∨
            addressBelongsToOwner resolver address owner = true →
          ∃ first last, admitted owner first last ∧ first ≤ address ∧ address < last) ∧
      ∀ address owner, retainedAddressAllowedForOwner resolver address owner = true →
        (∃ first last, admitted owner first last) ∧
          ∀ other first last, run.published other = some (first, last) →
            first ≤ address → address < last → other = owner := by
  intro run resolver admitted
  have hs : run.Sound := (IndexRun.sound_start shared).after calls
  have hcurrent {owner : OwnerToken} (h : resolver.current owner = true) :
      ∃ first last, admitted owner first last ∧ run.published owner = some (first, last) :=
    IndexRun.admitted_of_current shared calls h
  have hmapped (address : Nat) (owner : OwnerToken) : resolver.owners address = some owner ↔
      ∃ first last, run.published owner = some (first, last) ∧ first ≤ address ∧ address < last := by
    refine (AddressOwnershipIndex.ownerForAddress_eq_some hs.wellFormed address owner).trans ?_
    rw [← hs.ranges]
    rcases run.index.entryOf owner with _ | entry
    · simp
    · simp [and_assoc]
  refine ⟨fun scopes capture hint owner h => ?_, fun scopes capture address owner h => ?_,
    fun address owner h => ?_⟩
  · obtain ⟨first, last, hadmitted, -⟩ :=
      hcurrent ((findsCurrent_resolveInner scopes capture hint).contained h)
    exact ⟨first, last, hadmitted⟩
  · have hboth : resolver.owners address = some owner ∧ resolver.current owner = true := by
      rcases h with hregistered | hbelongs
      · obtain ⟨howner, hactual⟩ := resolveRegisteredAddress_some hregistered
        exact ⟨howner, (findsCurrent_resolveActualInner scopes capture).contained hactual⟩
      · exact (yields_validatedAddress address).contained (of_decide_eq_true hbelongs)
    obtain ⟨first, last, hadmitted, hrange⟩ := hcurrent hboth.2
    obtain ⟨low, high, hpublished, hin⟩ := (hmapped address owner).mp hboth.1
    obtain ⟨rfl, rfl⟩ := Prod.mk.inj (Option.some.inj (hrange.symm.trans hpublished))
    exact ⟨first, last, hadmitted, hin⟩
  · obtain ⟨hopen, halone⟩ := retainedAddressAllowedForOwner_current h
    obtain ⟨first, last, hadmitted, -⟩ := hcurrent hopen
    exact ⟨⟨first, last, hadmitted⟩, fun other low high hrange hlow hhigh =>
      halone other ((hmapped address other).mpr ⟨low, high, hrange, hlow, hhigh⟩)⟩

end Caller

end Nexus
