import Mathlib.Algebra.BigOperators.Group.List.Basic
import Mathlib.Algebra.GroupWithZero.Nat
import Mathlib.Order.Lattice

namespace Nexus

def tally {α : Type} (f : α → Nat) (items : List α) : Nat := (items.map f).sum

section Tally

variable {α : Type} (f : α → Nat)

@[simp] theorem tally_nil : tally f [] = 0 := rfl

@[simp] theorem tally_cons (a : α) (items : List α) : tally f (a :: items) = f a + tally f items :=
  rfl

@[simp] theorem tally_append (first second : List α) :
    tally f (first ++ second) = tally f first + tally f second := by
  unfold tally
  rw [List.map_append, List.sum_append]

variable {items : List α} {i : Nat}

theorem tally_set {old : α} (h : items[i]? = some old) (new : α) :
    tally f (items.set i new) + f old = tally f items + f new := by
  induction items generalizing i with
  | nil => cases h
  | cons _ _ ih =>
    cases i with
    | zero =>
      cases h
      rw [List.set_cons_zero, tally_cons, tally_cons]
      omega
    | succ =>
      have hrest := ih h
      rw [List.set_cons_succ, tally_cons, tally_cons]
      omega

variable {item : α}

theorem tally_eraseIdx (h : items[i]? = some item) :
    tally f (items.eraseIdx i) + f item = tally f items := by
  induction items generalizing i with
  | nil => cases h
  | cons _ _ ih =>
    cases i with
    | zero =>
      cases h
      rw [List.eraseIdx_cons_zero, tally_cons]
      omega
    | succ =>
      have hrest := ih h
      rw [List.eraseIdx_cons_succ, tally_cons, tally_cons]
      omega

variable {p : α → Bool}

theorem tally_eraseP (h : items.find? p = some item) :
    tally f items = f item + tally f (items.eraseP p) := by
  induction items with
  | nil => cases h
  | cons first _ ih =>
    rw [List.find?_cons] at h
    cases hfirst : p first with
    | true =>
      rw [hfirst] at h
      cases h
      rw [List.eraseP_cons_of_pos hfirst, tally_cons]
    | false =>
      rw [hfirst] at h
      rw [List.eraseP_cons_of_neg (by simp [hfirst]), tally_cons, tally_cons, ih h]
      omega

theorem tally_filter (p : α → Bool) (items : List α) :
    tally f (items.filter p) + tally f (items.filter fun item => !p item) = tally f items := by
  induction items with
  | nil => rfl
  | cons item =>
    rcases hp : p item with _ | _
    · rw [List.filter_cons_of_neg (by rw [hp]; decide), List.filter_cons_of_pos (by rw [hp]; rfl),
        tally_cons, tally_cons]
      omega
    · rw [List.filter_cons_of_pos hp, List.filter_cons_of_neg (by rw [hp]; decide), tally_cons,
        tally_cons]
      omega

variable {f} in
theorem tally_eq_zero (h : ∀ item ∈ items, f item = 0) : tally f items = 0 := by
  induction items with
  | nil => rfl
  | cons item _ ih =>
    rw [tally_cons, h item List.mem_cons_self,
      ih fun other hother => h other (List.mem_cons_of_mem _ hother)]

variable {f} in
theorem le_tally (h : item ∈ items) : f item ≤ tally f items := by
  induction items with
  | nil => cases h
  | cons _ _ ih =>
    rw [tally_cons]
    rcases List.mem_cons.mp h with rfl | hrest
    · omega
    · have := ih hrest
      omega

theorem countP_unique (hle : items.countP p ≤ 1) {a b : α} (ha : a ∈ items) (hb : b ∈ items)
    (hpa : p a = true) (hpb : p b = true) : a = b := by
  have hlength : (items.filter p).length ≤ 1 := by
    rw [← List.countP_eq_length_filter]
    exact hle
  have ha' := List.mem_filter.mpr ⟨ha, hpa⟩
  have hb' := List.mem_filter.mpr ⟨hb, hpb⟩
  match hitems : items.filter p with
  | [] =>
    rw [hitems] at ha'
    cases ha'
  | [item] =>
    rw [hitems] at ha' hb'
    rw [List.mem_singleton.mp ha', List.mem_singleton.mp hb']
  | first :: second :: rest =>
    rw [hitems, List.length_cons, List.length_cons] at hlength
    omega

end Tally

end Nexus
