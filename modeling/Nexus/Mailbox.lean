import Mathlib.Data.List.Nodup
import Mathlib.Logic.Relation

namespace Nexus

/-! A reader that first goes through a backlog and then takes what its carriers bring. -/

/-- `backlog` is what is left of the replay while it goes on; `owed` is what a carrier still has to bring. -/
structure Mailbox (α : Type) where
  accepts : α → Bool
  backlog : Option (List α)
  replay : List α
  live : List α
  written : List α
  owed : α → Prop

namespace Mailbox

variable {α : Type}

inductive Move : Mailbox α → Mailbox α → Prop
  | opened {box : Mailbox α} (accepts : α → Bool) {replay : List α} : replay.Nodup →
      box.written = [] → Move box ⟨accepts, some replay, replay, [], [], fun _ => False⟩
  | seen {box : Mailbox α} (accepts : α → Bool) :
      (∀ item ∈ box.replay ++ box.live, accepts item = box.accepts item) →
      Move box { box with accepts := accepts }
  | arrived {box : Mailbox α} (item : α) : item ∉ box.replay ++ box.live → Move box { box with
      live := box.live ++ [item]
      owed := fun other => other = item ∨ box.owed other }
  | refused {box : Mailbox α} {item : α} : box.accepts item = false →
      Move box { box with owed := fun other => other ≠ item ∧ box.owed other }
  | delivered {box : Mailbox α} {item : α} : box.owed item → box.accepts item = true →
      box.backlog = none → Move box { box with
        written := box.written ++ [item]
        owed := fun other => other ≠ item ∧ box.owed other }
  | replayed {box : Mailbox α} {item : α} {rest : List α} : box.backlog = some (item :: rest) →
      box.accepts item = true →
      Move box { box with backlog := some rest, written := box.written ++ [item] }
  | passed {box : Mailbox α} {item : α} {rest : List α} : box.backlog = some (item :: rest) →
      box.accepts item = false → Move box { box with backlog := some rest }
  | released {box : Mailbox α} : box.backlog = some [] → Move box { box with backlog := none }

/-- Nothing is lost, nothing is written twice, and the replay comes first. -/
structure Sound (box : Mailbox α) : Prop where
  nodup : (box.replay ++ box.live).Nodup
  owed : ∀ item, box.owed item → item ∈ box.live ∧ item ∉ box.written
  complete : ∀ item ∈ box.live, box.accepts item = true → item ∈ box.written ∨ box.owed item
  accepted : ∀ item ∈ box.written, item ∈ box.replay ++ box.live ∧ box.accepts item = true
  once : box.written.Nodup
  behind : ∀ rest, box.backlog = some rest →
    ∃ passed, box.replay = passed ++ rest ∧ box.written = passed.filter box.accepts
  after : box.backlog = none → box.replay.filter box.accepts <+: box.written

theorem sound_empty {accepts : α → Bool} :
    Sound ⟨accepts, none, [], [], [], fun _ => False⟩ where
  nodup := .nil
  owed _ h := h.elim
  complete _ h := by cases h
  accepted _ h := by cases h
  once := .nil
  behind _ h := by cases h
  after _ := List.nil_prefix

theorem sound_start {accepts : α → Bool} {replay : List α} (hnodup : replay.Nodup) :
    Sound ⟨accepts, some replay, replay, [], [], fun _ => False⟩ where
  nodup := by simpa using hnodup
  owed _ h := h.elim
  complete _ h := by cases h
  accepted _ h := by cases h
  once := .nil
  behind _ h := ⟨[], Option.some.inj h, rfl⟩
  after h := by cases h

namespace Sound

variable {box next : Mailbox α}

theorem replaying (h : box.Sound) {rest : List α} (hbacklog : box.backlog = some rest) :
    ∃ passed, box.replay = passed ++ rest ∧ box.written = passed.filter box.accepts ∧
      ∀ item ∈ box.live, item ∉ box.written := by
  obtain ⟨passed, hreplay, hwritten⟩ := h.behind rest hbacklog
  refine ⟨passed, hreplay, hwritten, fun item hlive hmem => ?_⟩
  rw [hwritten] at hmem
  have hpassed : item ∈ box.replay := by
    rw [hreplay]
    exact List.mem_append_left _ (List.mem_of_mem_filter hmem)
  exact List.disjoint_of_nodup_append h.nodup hpassed hlive

theorem seen (h : box.Sound) {accepts : α → Bool}
    (hsame : ∀ item ∈ box.replay ++ box.live, accepts item = box.accepts item) :
    Sound { box with accepts := accepts } := by
  refine ⟨h.nodup, h.owed, fun item hlive haccepts => ?_, fun item hitem => ?_, h.once,
    fun rest hbacklog => ?_, fun hbacklog => ?_⟩
  · exact h.complete item hlive ((hsame item (List.mem_append_right _ hlive)).symm.trans haccepts)
  · obtain ⟨hmem, haccepts⟩ := h.accepted item hitem
    exact ⟨hmem, (hsame item hmem).trans haccepts⟩
  · obtain ⟨passed, hreplay, hwritten⟩ := h.behind rest hbacklog
    refine ⟨passed, hreplay, hwritten.trans (List.filter_congr fun item hitem => ?_)⟩
    refine (hsame item (List.mem_append_left _ ?_)).symm
    rw [hreplay]
    exact List.mem_append_left _ hitem
  · have hreplay : box.replay.filter accepts = box.replay.filter box.accepts :=
      List.filter_congr fun item hitem => hsame item (List.mem_append_left _ hitem)
    exact hreplay ▸ h.after hbacklog

theorem arrived (h : box.Sound) {item : α} (hnew : item ∉ box.replay ++ box.live) :
    Sound { box with
      live := box.live ++ [item]
      owed := fun other => other = item ∨ box.owed other } where
  nodup := by
    rw [← List.append_assoc]
    exact List.nodup_append'.mpr ⟨h.nodup, List.nodup_singleton item,
      fun _ hold hitem => hnew (List.mem_singleton.mp hitem ▸ hold)⟩
  owed other hother := by
    rcases hother with rfl | hother
    · exact ⟨by simp, fun hmem => hnew (h.accepted other hmem).1⟩
    · exact ⟨List.mem_append_left _ (h.owed other hother).1, (h.owed other hother).2⟩
  complete other hlive haccepts := by
    rcases List.mem_append.mp hlive with hlive | hlive
    · exact (h.complete other hlive haccepts).imp_right Or.inr
    · exact Or.inr (Or.inl (List.mem_singleton.mp hlive))
  accepted other hother := by
    rw [← List.append_assoc]
    exact ⟨List.mem_append_left _ (h.accepted other hother).1, (h.accepted other hother).2⟩
  once := h.once
  behind := h.behind
  after := h.after

theorem refused (h : box.Sound) {item : α} (hrefused : box.accepts item = false) :
    Sound { box with owed := fun other => other ≠ item ∧ box.owed other } where
  nodup := h.nodup
  owed other hother := h.owed other hother.2
  complete other hlive haccepts := by
    refine (h.complete other hlive haccepts).imp_right fun howed => ⟨?_, howed⟩
    rintro rfl
    exact absurd (haccepts.symm.trans hrefused) Bool.noConfusion
  accepted := h.accepted
  once := h.once
  behind := h.behind
  after := h.after

theorem delivered (h : box.Sound) {item : α} (howed : box.owed item)
    (haccepts : box.accepts item = true) (hbacklog : box.backlog = none) :
    Sound { box with
      written := box.written ++ [item]
      owed := fun other => other ≠ item ∧ box.owed other } where
  nodup := h.nodup
  owed other hother := by
    obtain ⟨hne, hother⟩ := hother
    refine ⟨(h.owed other hother).1, fun hmem => ?_⟩
    rcases List.mem_append.mp hmem with hmem | hmem
    · exact (h.owed other hother).2 hmem
    · exact hne (List.mem_singleton.mp hmem)
  complete other hlive hother := by
    rcases h.complete other hlive hother with hmem | hpending
    · exact Or.inl (List.mem_append_left _ hmem)
    · by_cases heq : other = item
      · exact Or.inl (by simp [heq])
      · exact Or.inr ⟨heq, hpending⟩
  accepted other hmem := by
    rcases List.mem_append.mp hmem with hmem | hmem
    · exact h.accepted other hmem
    · rw [List.mem_singleton.mp hmem]
      exact ⟨List.mem_append_right _ (h.owed item howed).1, haccepts⟩
  once := List.nodup_append'.mpr ⟨h.once, List.nodup_singleton item,
    fun _ hold hitem => (h.owed item howed).2 (List.mem_singleton.mp hitem ▸ hold)⟩
  behind rest hrest := absurd (hbacklog.symm.trans hrest) nofun
  after hnone := (h.after hnone).trans (List.prefix_append _ _)

theorem replayed (h : box.Sound) {item : α} {rest : List α}
    (hbacklog : box.backlog = some (item :: rest)) (haccepts : box.accepts item = true) :
    Sound { box with backlog := some rest, written := box.written ++ [item] } := by
  obtain ⟨passed, hreplay, hwritten, _⟩ := h.replaying hbacklog
  have hmem : item ∈ box.replay := by simp [hreplay]
  have hfresh : item ∉ box.written := by
    have hnodup := (List.nodup_append'.mp h.nodup).1
    rw [hreplay] at hnodup
    intro hitem
    rw [hwritten] at hitem
    exact List.disjoint_of_nodup_append hnodup (List.mem_of_mem_filter hitem) List.mem_cons_self
  refine ⟨h.nodup, fun other hother => ?_, fun other hother haccepted => ?_, fun other hother => ?_,
    ?_, ?_, nofun⟩
  · refine ⟨(h.owed other hother).1, fun hold => ?_⟩
    rcases List.mem_append.mp hold with hold | hold
    · exact (h.owed other hother).2 hold
    · rw [List.mem_singleton.mp hold] at hother
      exact List.disjoint_of_nodup_append h.nodup hmem (h.owed item hother).1
  · exact (h.complete other hother haccepted).imp_left (List.mem_append_left _)
  · rcases List.mem_append.mp hother with hother | hother
    · exact h.accepted other hother
    · rw [List.mem_singleton.mp hother]
      exact ⟨List.mem_append_left _ hmem, haccepts⟩
  · exact List.nodup_append'.mpr ⟨h.once, List.nodup_singleton item,
      fun _ hold hitem => hfresh (List.mem_singleton.mp hitem ▸ hold)⟩
  · intro remaining hremaining
    refine ⟨passed ++ [item], ?_, ?_⟩
    · rw [← Option.some.inj hremaining, hreplay, List.append_assoc, List.singleton_append]
    · rw [List.filter_append, List.filter_singleton, haccepts]
      exact congrArg (· ++ [item]) hwritten

theorem passed (h : box.Sound) {item : α} {rest : List α}
    (hbacklog : box.backlog = some (item :: rest)) (haccepts : box.accepts item = false) :
    Sound { box with backlog := some rest } := by
  obtain ⟨passed, hreplay, hwritten⟩ := h.behind _ hbacklog
  refine ⟨h.nodup, h.owed, h.complete, h.accepted, h.once, fun remaining hremaining => ?_, nofun⟩
  refine ⟨passed ++ [item], ?_, ?_⟩
  · rw [← Option.some.inj hremaining, hreplay, List.append_assoc, List.singleton_append]
  · rw [List.filter_append, List.filter_singleton, haccepts, hwritten]
    exact (List.append_nil _).symm

theorem released (h : box.Sound) (hbacklog : box.backlog = some []) :
    Sound { box with backlog := none } := by
  obtain ⟨_, hreplay, hwritten⟩ := h.behind _ hbacklog
  refine ⟨h.nodup, h.owed, h.complete, h.accepted, h.once, nofun, fun _ => ?_⟩
  rw [List.append_nil] at hreplay
  exact (hreplay ▸ hwritten.symm : _ = box.written) ▸ List.prefix_refl _

theorem move (h : box.Sound) (hmove : Move box next) : next.Sound := by
  cases hmove with
  | opened _ hnodup => exact sound_start hnodup
  | seen _ hsame => exact h.seen hsame
  | arrived _ hnew => exact h.arrived hnew
  | refused hrefused => exact h.refused hrefused
  | delivered howed haccepts hbacklog => exact h.delivered howed haccepts hbacklog
  | replayed hbacklog haccepts => exact h.replayed hbacklog haccepts
  | passed hbacklog haccepts => exact h.passed hbacklog haccepts
  | released hbacklog => exact h.released hbacklog

theorem moves (h : box.Sound) (hmoves : Relation.ReflTransGen Move box next) : next.Sound := by
  induction hmoves with
  | refl => exact h
  | tail _ hmove ih => exact ih.move hmove

end Sound

theorem Move.written_prefix {box next : Mailbox α} (hmove : Move box next) :
    box.written <+: next.written := by
  cases hmove with
  | opened _ _ hwritten => simp [hwritten]
  | delivered | replayed => exact List.prefix_append _ _
  | _ => exact List.prefix_refl _

theorem written_prefix_of_moves {box next : Mailbox α}
    (hmoves : Relation.ReflTransGen Move box next) : box.written <+: next.written := by
  induction hmoves with
  | refl => exact List.prefix_refl _
  | tail _ hmove ih => exact ih.trans hmove.written_prefix

end Mailbox

end Nexus
