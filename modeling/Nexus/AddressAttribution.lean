import Nexus.AddressOwnership
import Mathlib.Data.List.Pairwise

namespace Nexus

/-- Two half-open ranges without a common address. -/
def MappedRange.Apart (a b : MappedRange) : Prop := a.stop ≤ b.start ∨ b.stop ≤ a.start

instance : Std.Symm MappedRange.Apart := ⟨fun _ _ h => h.symm⟩

instance : Std.Symm fun a b : MappedRange => a.owner.signature ≠ b.owner.signature :=
  ⟨fun _ _ h => h.symm⟩

namespace AddressOwnershipIndex

def entryOf (index : AddressOwnershipIndex) (owner : OwnerToken) : Option MappedRange :=
  index.entries.find? fun entry => entry.owner = owner

structure WellFormed (index : AddressOwnershipIndex) : Prop where
  bounded : ∀ entry ∈ index.entries,
    entry.owner.signature ≠ 0 ∧ entry.start < entry.stop ∧ entry.stop < wordLimit
  apart : index.entries.Pairwise MappedRange.Apart
  signatures : index.entries.Pairwise fun a b => a.owner.signature ≠ b.owner.signature

variable {index : AddressOwnershipIndex} {owner : OwnerToken} {entry : MappedRange}

theorem entryOf_mem (h : index.entryOf owner = some entry) :
    entry ∈ index.entries ∧ entry.owner = owner :=
  ⟨List.mem_of_find?_eq_some h, by simpa using List.find?_some h⟩

theorem entryOf_none (h : index.entryOf owner = none) (hm : entry ∈ index.entries) :
    entry.owner ≠ owner := by
  have hno := List.find?_eq_none.mp h entry hm
  simpa using hno

theorem WellFormed.entryOf_of_mem (hw : index.WellFormed) (hm : entry ∈ index.entries) :
    index.entryOf entry.owner = some entry := by
  obtain ⟨other, ho⟩ : ∃ other, index.entryOf entry.owner = some other := by
    rcases ho : index.entryOf entry.owner with _ | other
    · exact absurd rfl (entryOf_none ho hm)
    · exact ⟨other, rfl⟩
  obtain ⟨hmo, howner⟩ := entryOf_mem ho
  by_cases heq : entry = other
  · rw [ho, heq]
  · have hne := hw.signatures.forall hm hmo heq
    exact absurd (congrArg OwnerToken.signature howner.symm) hne

variable {next : AddressOwnershipIndex} {start size : Nat} {gate : GateRef}
  {result : AddressPublish}

theorem publish_ok (h : index.publish owner start size gate = .ok (result, next)) :
    (result = .alreadyPresent ∧ next = index ∧ (index.entryOf owner).isSome) ∨
      (result = .inserted ∧ owner.signature ≠ 0 ∧ 0 < size ∧ start + size < wordLimit ∧
        index.entryOf owner = none ∧
        (∀ entry ∈ index.entries, entry.owner.signature ≠ owner.signature ∧
          (entry.stop ≤ start ∨ start + size ≤ entry.start)) ∧
        next = ⟨index.entries ++ [⟨owner, start, start + size, true, gate⟩]⟩) := by
  unfold publish at h
  split at h
  next => cases h
  next hsignature =>
  split at h
  next => cases h
  next hsize =>
  unfold checkedAdd at h
  split at h
  next => cases h
  next stop hstop =>
  split at hstop
  next hlt =>
    obtain rfl := Option.some.inj hstop
    split at h
    next hfound =>
      split at h
      next => cases h
      split at h
      next => cases h
      cases h
      exact Or.inl ⟨rfl, rfl, by rw [entryOf, hfound]; rfl⟩
    next hmissing =>
      split at h
      next => cases h
      next hused =>
      split at h
      next => cases h
      next hoverlap =>
      cases h
      refine Or.inr ⟨rfl, hsignature, Nat.pos_of_ne_zero hsize, hlt, hmissing, ?_, rfl⟩
      intro entry hm
      have hfree : entry.owner.signature ≠ owner.signature := fun heq =>
        hused (List.any_eq_true.mpr ⟨entry, hm, by simpa using heq⟩)
      have hclear : ¬(start < entry.stop ∧ entry.start < start + size) := fun hboth =>
        hoverlap (List.any_eq_true.mpr ⟨entry, hm, by simpa using hboth⟩)
      exact ⟨hfree, by omega⟩
  next => cases hstop

theorem closeFirst_eq_map {entries : List MappedRange}
    (hs : entries.Pairwise fun a b => a.owner.signature ≠ b.owner.signature) :
    closeFirst owner entries =
      entries.map fun entry =>
        if entry.owner = owner then { entry with accepting := false } else entry := by
  induction entries with
  | nil => rfl
  | cons head rest ih =>
    obtain ⟨hhead, hrest⟩ := List.pairwise_cons.mp hs
    simp only [closeFirst, List.map_cons]
    by_cases hown : head.owner = owner
    · rw [if_pos hown, if_pos hown]
      congr 1
      have hothers : ∀ entry ∈ rest, (if entry.owner = owner then
          { entry with accepting := false } else entry) = entry := by
        intro entry hm
        have hne := hhead entry hm
        rw [if_neg fun heq => hne (by rw [hown, heq])]
      rw [List.map_congr_left hothers, List.map_id']
    · rw [if_neg hown, if_neg hown, ih hrest]

theorem close_entries (index : AddressOwnershipIndex) (hw : index.WellFormed) (owner : OwnerToken)
    (shared : Shared) :
    (index.close owner shared).2.1.entries = index.entries.map fun entry =>
      if entry.owner = owner then { entry with accepting := false } else entry := by
  unfold close
  split
  next hmissing =>
    have hothers : ∀ entry ∈ index.entries, (if entry.owner = owner then
        { entry with accepting := false } else entry) = entry := by
      intro entry hm
      rw [if_neg (entryOf_none hmissing hm)]
    rw [List.map_congr_left hothers, List.map_id']
  next => exact closeFirst_eq_map hw.signatures

theorem WellFormed.publish (hw : index.WellFormed)
    (h : index.publish owner start size gate = .ok (result, next)) : next.WellFormed := by
  rcases publish_ok h with ⟨-, rfl, -⟩ | ⟨-, hsignature, hsize, hlt, -, hfree, rfl⟩
  · exact hw
  · refine ⟨fun entry hm => ?_, ?_, ?_⟩
    · rcases List.mem_append.mp hm with hm | hm
      · exact hw.bounded entry hm
      · obtain rfl := List.mem_singleton.mp hm
        exact ⟨hsignature, Nat.lt_add_of_pos_right hsize, hlt⟩
    · refine List.pairwise_append.mpr ⟨hw.apart, List.pairwise_singleton .., ?_⟩
      intro entry hm new hnew
      obtain rfl := List.mem_singleton.mp hnew
      exact (hfree entry hm).2
    · refine List.pairwise_append.mpr ⟨hw.signatures, List.pairwise_singleton .., ?_⟩
      intro entry hm new hnew
      obtain rfl := List.mem_singleton.mp hnew
      exact (hfree entry hm).1

theorem WellFormed.close (hw : index.WellFormed) (owner : OwnerToken) (shared : Shared) :
    (index.close owner shared).2.1.WellFormed := by
  have hentries := close_entries index hw owner shared
  refine ⟨fun entry hm => ?_, ?_, ?_⟩
  · rw [hentries] at hm
    obtain ⟨old, ho, rfl⟩ := List.mem_map.mp hm
    have hb := hw.bounded old ho
    split <;> exact hb
  · rw [hentries, List.pairwise_map]
    refine hw.apart.imp fun {a b} h => ?_
    have hmarks : ∀ entry : MappedRange, (if entry.owner = owner then
        { entry with accepting := false } else entry).start = entry.start ∧
        (if entry.owner = owner then { entry with accepting := false } else entry).stop =
          entry.stop := by
      intro entry
      split <;> exact ⟨rfl, rfl⟩
    unfold MappedRange.Apart
    rw [(hmarks a).1, (hmarks a).2, (hmarks b).1, (hmarks b).2]
    exact h
  · rw [hentries, List.pairwise_map]
    refine hw.signatures.imp fun {a b} h => ?_
    split <;> split <;> exact h

theorem WellFormed.retire (hw : index.WellFormed) (owner : OwnerToken) :
    (index.retire owner).2.WellFormed :=
  ⟨fun entry hm => hw.bounded entry (mem_retire.mp hm).1, hw.apart.filter _,
    hw.signatures.filter _⟩

theorem entryOf_close (hw : index.WellFormed) (owner other : OwnerToken) (shared : Shared) :
    (index.close owner shared).2.1.entryOf other = (index.entryOf other).map fun entry =>
      if entry.owner = owner then { entry with accepting := false } else entry := by
  unfold entryOf
  rw [close_entries index hw, List.find?_map]
  congr 2
  funext entry
  simp only [Function.comp_apply]
  split <;> rfl

theorem entryOf_retire (index : AddressOwnershipIndex) (owner other : OwnerToken) :
    (index.retire owner).2.entryOf other = if other = owner then none else index.entryOf other := by
  unfold entryOf retire
  rw [List.find?_filter]
  split
  next heq =>
    subst heq
    refine List.find?_eq_none.mpr fun entry _ => ?_
    simp
  next hne =>
    congr 1
    funext entry
    by_cases hown : entry.owner = other
    · simp [hown, hne]
    · simp [hown]

theorem entryOf_publish (h : index.publish owner start size gate = .ok (result, next))
    (other : OwnerToken) :
    next.entryOf other = if result = .inserted ∧ other = owner then
      some ⟨owner, start, start + size, true, gate⟩ else index.entryOf other := by
  rcases publish_ok h with ⟨rfl, rfl, -⟩ | ⟨rfl, -, -, -, hmissing, -, rfl⟩
  · simp
  · by_cases heq : other = owner
    · subst heq
      have hfirst : index.entries.find? (fun entry => entry.owner = other) = none := hmissing
      simp [entryOf, List.find?_append, hfirst]
    · simp [entryOf, List.find?_append, heq, Ne.symm heq]

theorem isCurrentOwner_eq (hw : index.WellFormed) (owner : OwnerToken) :
    index.isCurrentOwner owner = (index.entryOf owner).any MappedRange.accepting := by
  rcases he : index.entryOf owner with _ | entry
  · have hno : ∀ entry ∈ index.entries, ¬(entry.owner = owner ∧ entry.accepting = true) :=
      fun entry hm h => entryOf_none he hm h.1
    simpa [isCurrentOwner] using hno
  · obtain ⟨hm, rfl⟩ := entryOf_mem he
    rw [Option.any_some, isCurrentOwner, Bool.eq_iff_iff, List.any_eq_true]
    constructor
    · rintro ⟨other, ho, hboth⟩
      obtain ⟨howner, haccepting⟩ : other.owner = entry.owner ∧ other.accepting = true := by
        simpa using hboth
      have hsame := hw.entryOf_of_mem ho
      rw [howner, he] at hsame
      rw [Option.some.inj hsame, haccepting]
    · intro haccepting
      exact ⟨entry, hm, by simp [haccepting]⟩

theorem callbackGateForCurrent_none (h : index.isCurrentOwner owner = false) :
    index.callbackGateForCurrent owner = none := by
  have hnone : index.entries.find? (fun entry => entry.owner = owner ∧ entry.accepting) = none :=
    List.find?_eq_none.mpr fun entry hm => List.any_eq_false.mp h entry hm
  rw [callbackGateForCurrent, hnone]
  rfl

theorem ownerForAddress_eq_some (hw : index.WellFormed) (address : Nat) (owner : OwnerToken) :
    index.ownerForAddress address = some owner ↔
      ∃ entry, index.entryOf owner = some entry ∧ entry.start ≤ address ∧
        address < entry.stop := by
  unfold ownerForAddress
  rw [Option.map_eq_some_iff]
  constructor
  · rintro ⟨entry, hfound, rfl⟩
    have hin := List.find?_some hfound
    exact ⟨entry, hw.entryOf_of_mem (List.mem_of_find?_eq_some hfound), by simpa using hin⟩
  · rintro ⟨entry, he, hlow, hhigh⟩
    obtain ⟨hm, rfl⟩ := entryOf_mem he
    rcases hf : index.entries.find? (fun entry => entry.start ≤ address ∧ address < entry.stop)
      with _ | other
    · have hno := List.find?_eq_none.mp hf entry hm
      exact absurd (by simpa using ⟨hlow, hhigh⟩) hno
    · have hin := List.find?_some hf
      obtain ⟨_, _⟩ : other.start ≤ address ∧ address < other.stop := by simpa using hin
      by_cases heq : other = entry
      · exact ⟨other, hf, by rw [heq]⟩
      · have hapart := hw.apart.forall (List.mem_of_find?_eq_some hf) hm heq
        unfold MappedRange.Apart at hapart
        omega

end AddressOwnershipIndex

inductive IndexCall where
  | publish (owner : OwnerToken) (start size : Nat) (gate : GateRef)
  | close (owner : OwnerToken)
  | retire (owner : OwnerToken)

/-- The index with the gates it closes, and the range of each generation whose publication was
answered `inserted` and that was not retired since. -/
structure IndexRun where
  index : AddressOwnershipIndex
  shared : Shared
  published : OwnerToken → Option (Nat × Nat)

namespace IndexRun

open AddressOwnershipIndex

def start (shared : Shared) : IndexRun := ⟨.new, shared, fun _ => none⟩

def step (run : IndexRun) : IndexCall → IndexRun
  | .publish owner first size gate =>
    match run.index.publish owner first size gate with
    | .ok (.inserted, index) =>
      { run with
        index := index
        published := Function.update run.published owner (some (first, first + size)) }
    | .ok (.alreadyPresent, index) => { run with index := index }
    | .error _ => run
  | .close owner =>
    let closed := run.index.close owner run.shared
    { run with index := closed.2.1, shared := closed.2.2 }
  | .retire owner =>
    { run with
      index := (run.index.retire owner).2
      published := Function.update run.published owner none }

def after (run : IndexRun) (calls : List IndexCall) : IndexRun := calls.foldl step run

structure Sound (run : IndexRun) : Prop where
  wellFormed : run.index.WellFormed
  ranges : ∀ owner, (run.index.entryOf owner).map (fun entry => (entry.start, entry.stop)) =
    run.published owner

variable {run : IndexRun}

theorem Sound.step (h : run.Sound) (call : IndexCall) : (run.step call).Sound := by
  cases call with
  | publish owner first size gate =>
    simp only [IndexRun.step]
    rcases hp : run.index.publish owner first size gate with _ | ⟨result, index⟩
    · exact h
    have hranges := entryOf_publish hp
    rcases result with _ | _
    · refine ⟨h.wellFormed.publish hp, fun other => ?_⟩
      rw [hranges]
      by_cases heq : other = owner
      · simp [heq]
      · simpa [heq, Function.update_of_ne heq] using h.ranges other
    · refine ⟨h.wellFormed.publish hp, fun other => ?_⟩
      rw [hranges]
      simpa using h.ranges other
  | close owner =>
    refine ⟨h.wellFormed.close owner run.shared, fun other => ?_⟩
    refine Eq.trans ?_ (h.ranges other)
    simp only [IndexRun.step]
    rw [entryOf_close h.wellFormed, Option.map_map]
    congr 1
    funext entry
    simp only [Function.comp_apply]
    split <;> rfl
  | retire owner =>
    refine ⟨h.wellFormed.retire owner, fun other => ?_⟩
    simp only [IndexRun.step]
    rw [entryOf_retire, Function.update_apply]
    split
    · rfl
    · exact h.ranges other

theorem Sound.after (h : run.Sound) (calls : List IndexCall) : (run.after calls).Sound := by
  induction calls generalizing run with
  | nil => exact h
  | cons call _ ih => exact ih (h.step call)

theorem sound_start (shared : Shared) : (start shared).Sound :=
  ⟨⟨by simp [start, AddressOwnershipIndex.new], .nil, .nil⟩, fun _ => rfl⟩

structure Shut (run : IndexRun) (owner : OwnerToken) (gate : GateRef) : Prop where
  closed : (run.index.entryOf owner).map (fun entry => entry.accepting) = some false
  gateClosed : (run.shared.gates gate).accepting = false

variable {gate : GateRef}

theorem closeGate_closed (s : Shared) {ref : GateRef} (h : (s.gates gate).accepting = false) :
    ((s.closeGate ref).gates gate).accepting = false := by
  unfold Shared.closeGate Shared.setGate
  by_cases heq : gate = ref
  · subst heq
    simp
  · simpa [Function.update_of_ne heq] using h

variable {owner : OwnerToken}

theorem Shut.step (h : run.Shut owner gate) (hs : run.Sound) {call : IndexCall}
    (hcall : call ≠ .retire owner) : (run.step call).Shut owner gate := by
  obtain ⟨_, he, haccepting⟩ := Option.map_eq_some_iff.mp h.closed
  cases call with
  | publish other first size ref =>
    simp only [IndexRun.step]
    rcases hp : run.index.publish other first size ref with _ | ⟨result, index⟩
    · exact h
    have hsame : index.entryOf owner = run.index.entryOf owner := by
      rw [entryOf_publish hp, if_neg]
      rintro ⟨rfl, rfl⟩
      rcases publish_ok hp with ⟨hr, -⟩ | ⟨-, -, -, -, hmissing, -⟩
      · cases hr
      · rw [hmissing] at he
        cases he
    rcases result with _ | _
    · exact ⟨by rw [hsame]; exact h.closed, h.gateClosed⟩
    · exact ⟨by rw [hsame]; exact h.closed, h.gateClosed⟩
  | close =>
    refine ⟨?_, ?_⟩
    · simp only [IndexRun.step]
      rw [entryOf_close hs.wellFormed, he, Option.map_some, Option.map_some]
      split
      · rfl
      · rw [haccepting]
    · simp only [IndexRun.step, AddressOwnershipIndex.close]
      split
      · exact h.gateClosed
      · exact closeGate_closed run.shared h.gateClosed
  | retire other =>
    have hne : owner ≠ other := fun heq => hcall (by rw [heq])
    refine ⟨?_, h.gateClosed⟩
    simp only [IndexRun.step]
    rw [entryOf_retire, if_neg hne]
    exact h.closed

theorem Shut.after (h : run.Shut owner gate) (hs : run.Sound) {calls : List IndexCall}
    (hcalls : IndexCall.retire owner ∉ calls) : (run.after calls).Shut owner gate := by
  induction calls generalizing run with
  | nil => exact h
  | cons call _ ih =>
    have hcall : call ≠ .retire owner := fun heq => hcalls (heq ▸ List.mem_cons_self ..)
    exact ih (h.step hs hcall) (hs.step call) fun hm => hcalls (List.mem_cons_of_mem _ hm)

theorem shut_close (hs : run.Sound) {entry : MappedRange}
    (he : run.index.entryOf owner = some entry) :
    (run.step (.close owner)).Shut owner entry.callbackGate := by
  refine ⟨?_, ?_⟩
  · simp only [IndexRun.step]
    rw [entryOf_close hs.wellFormed, he, Option.map_some, Option.map_some,
      if_pos (entryOf_mem he).2]
  · have hfound : run.index.entries.find? (fun entry => entry.owner = owner) = some entry := he
    simp only [IndexRun.step, AddressOwnershipIndex.close, hfound]
    simp [Shared.closeGate, Shared.setGate]

/-- After any calls: the entries are separate, non-empty ranges of distinct signatures, an address
belongs to the generation whose published range holds it, a refused publication changes nothing,
a closed generation is not current again before it is retired, whatever is published, and closing
or retiring one generation leaves the entries of the others alone. -/
theorem address_attribution (shared : Shared) (calls : List IndexCall) :
    let run := (start shared).after calls
    run.index.WellFormed ∧
      (∀ address owner, run.index.ownerForAddress address = some owner ↔
        ∃ first last, run.published owner = some (first, last) ∧
          first ≤ address ∧ address < last) ∧
      (∀ owner first size gate error,
        run.index.publish owner first size gate = .error error →
          run.step (.publish owner first size gate) = run) ∧
      (∀ owner entry, run.index.entryOf owner = some entry →
        ∀ later, IndexCall.retire owner ∉ later →
          let shut := (run.step (.close owner)).after later
          shut.index.isCurrentOwner owner = false ∧
            shut.index.callbackGateForCurrent owner = none ∧
            (shut.shared.gates entry.callbackGate).accepting = false) ∧
      (∀ owner other, other ≠ owner →
        (run.step (.close owner)).index.entryOf other = run.index.entryOf other ∧
          (run.step (.retire owner)).index.entryOf other = run.index.entryOf other) := by
  intro run
  have hs : run.Sound := (sound_start shared).after calls
  refine ⟨hs.wellFormed, fun address owner => ?_, fun owner first size gate error he => ?_,
    fun owner entry he later hlater => ?_, fun owner other hne => ?_⟩
  · rw [ownerForAddress_eq_some hs.wellFormed, ← hs.ranges]
    constructor
    · rintro ⟨entry, he, hin⟩
      exact ⟨entry.start, entry.stop, by rw [he]; rfl, hin⟩
    · rintro ⟨first, last, hrange, hin⟩
      obtain ⟨entry, he, hpair⟩ := Option.map_eq_some_iff.mp hrange
      obtain ⟨rfl, rfl⟩ := Prod.mk.inj hpair
      exact ⟨entry, he, hin⟩
  · simp only [IndexRun.step, he]
  · have hshut := (shut_close hs he).after (hs.step _) hlater
    have hcurrent : (((run.step (.close owner)).after later).index.isCurrentOwner owner) = false := by
      rw [isCurrentOwner_eq ((hs.step _).after later).wellFormed]
      obtain ⟨last, hlast, haccepting⟩ := Option.map_eq_some_iff.mp hshut.closed
      rw [hlast, Option.any_some, haccepting]
    exact ⟨hcurrent, callbackGateForCurrent_none hcurrent, hshut.gateClosed⟩
  · refine ⟨?_, ?_⟩
    · simp only [IndexRun.step]
      rw [entryOf_close hs.wellFormed]
      rcases he : run.index.entryOf other with _ | entry
      · rfl
      · rw [Option.map_some, if_neg]
        rw [(entryOf_mem he).2]
        exact hne
    · simp only [IndexRun.step]
      rw [entryOf_retire, if_neg hne]

end IndexRun

end Nexus
