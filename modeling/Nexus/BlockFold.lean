import Mathlib.Data.List.Basic
import Mathlib.Algebra.Order.Ring.Nat

namespace Nexus.BlockFold

/-! A state that takes its input block by block. -/

variable {σ α : Type} (take : σ → List α → σ) (size : Nat)

def foldBlocks : Nat → σ → List α → σ
  | 0, state, _ => state
  | count + 1, state, items => foldBlocks count (take state (items.take size)) (items.drop size)

def absorb (state : σ) (items : List α) : σ :=
  foldBlocks take size (items.length / size) state items

def rest (items : List α) : List α := items.drop (size * (items.length / size))

theorem foldBlocks_add (first second : Nat) (state : σ) (items : List α) :
    foldBlocks take size (first + second) state items =
      foldBlocks take size second (foldBlocks take size first state items)
        (items.drop (size * first)) := by
  induction first generalizing state items with
  | zero => rw [Nat.zero_add, Nat.mul_zero, List.drop_zero]; rfl
  | succ _ ih =>
    rw [Nat.succ_add, foldBlocks, foldBlocks, ih, List.drop_drop, Nat.mul_succ, Nat.add_comm size]

variable {items : List α}

theorem foldBlocks_append {count : Nat} (h : size * count ≤ items.length) (state : σ)
    (more : List α) :
    foldBlocks take size count state (items ++ more) = foldBlocks take size count state items := by
  induction count generalizing state items with
  | zero => rfl
  | succ count ih =>
    rw [Nat.mul_succ] at h
    have hsize : size ≤ items.length := by omega
    have hrest : size * count ≤ (items.drop size).length := by
      rw [List.length_drop]
      omega
    rw [foldBlocks, foldBlocks, List.take_append_of_le_length hsize,
      List.drop_append_of_le_length hsize, ih hrest]

variable {take size}

theorem length_rest (items : List α) : (rest size items).length = items.length % size := by
  unfold rest
  rw [List.length_drop, Nat.mod_eq_sub]

theorem length_rest_lt (hsize : 0 < size) (items : List α) : (rest size items).length < size := by
  rw [length_rest]
  exact Nat.mod_lt _ hsize

theorem absorb_of_lt (h : items.length < size) (state : σ) :
    absorb take size state items = state := by
  unfold absorb
  rw [Nat.div_eq_of_lt h]
  rfl

theorem rest_of_lt (h : items.length < size) : rest size items = items := by
  unfold rest
  rw [Nat.div_eq_of_lt h, Nat.mul_zero, List.drop_zero]

theorem absorb_block (hsize : 0 < size) (h : size ≤ items.length) (state : σ) :
    absorb take size state items =
      absorb take size (take state (items.take size)) (items.drop size) := by
  unfold absorb
  rw [Nat.div_eq_sub_div hsize h, List.length_drop]
  rfl

theorem rest_block (hsize : 0 < size) (h : size ≤ items.length) :
    rest size items = rest size (items.drop size) := by
  unfold rest
  rw [Nat.div_eq_sub_div hsize h, List.length_drop, List.drop_drop, Nat.mul_succ, Nat.add_comm]

theorem div_append (hsize : 0 < size) (items more : List α) :
    (items ++ more).length / size =
      items.length / size + (rest size items ++ more).length / size := by
  rw [List.length_append, List.length_append, length_rest]
  have hsplit : items.length + more.length =
      (items.length % size + more.length) + size * (items.length / size) := by
    have := Nat.mod_add_div items.length size
    omega
  rw [hsplit, Nat.add_mul_div_left _ _ hsize, Nat.add_comm]

variable (take size)

theorem drop_append_rest (items more : List α) :
    (items ++ more).drop (size * (items.length / size)) = rest size items ++ more :=
  List.drop_append_of_le_length (Nat.mul_div_le items.length size)

theorem absorb_append (hsize : 0 < size) (state : σ) (items more : List α) :
    absorb take size state (items ++ more) =
      absorb take size (absorb take size state items) (rest size items ++ more) := by
  unfold absorb
  rw [div_append hsize, foldBlocks_add, foldBlocks_append _ _ (Nat.mul_div_le items.length size),
    drop_append_rest]

theorem rest_append (hsize : 0 < size) (items more : List α) :
    rest size (items ++ more) = rest size (rest size items ++ more) := by
  have hdrop := drop_append_rest size items more
  unfold rest at hdrop ⊢
  rw [div_append hsize, Nat.mul_add, ← List.drop_drop, hdrop]
  rfl

end Nexus.BlockFold
