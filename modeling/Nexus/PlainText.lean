import Mathlib.Algebra.GroupWithZero.Nat
import Mathlib.Data.String.Basic

namespace Nexus

/-- `str::parse` of an unsigned type with values below `bound`: an optional plus sign, then one
or more ASCII digits. -/
def parseUnsigned (bound : Nat) (text : String) : Option (Fin bound) :=
  let digits := if text.toList.head? = some '+' then text.toList.tail else text.toList
  if digits ≠ [] ∧ digits.all Char.isDigit then
    let value := Nat.ofDigitChars 10 digits 0
    if h : value < bound then some ⟨value, h⟩ else none
  else none

theorem isDigit_of_mem_repr {n : Nat} {c : Char} (h : c ∈ n.repr.toList) : c.isDigit = true := by
  rw [Nat.toList_repr] at h
  exact Nat.isDigit_of_mem_toDigits (by omega) (by omega) h

theorem repr_toList_head (n : Nat) : n.repr.toList.head? ≠ some '+' := by
  intro h
  have hmem : '+' ∈ n.repr.toList := List.mem_of_mem_head? h
  have hdigit : '+'.isDigit = true := isDigit_of_mem_repr hmem
  exact absurd hdigit (by decide)

theorem parseUnsigned_repr {bound : Nat} (n : Fin bound) :
    parseUnsigned bound n.val.repr = some n := by
  have hne : n.val.repr.toList ≠ [] := by
    rw [Nat.toList_repr]
    exact Nat.toDigits_ne_nil
  have hall : n.val.repr.toList.all Char.isDigit = true := by
    rw [List.all_eq_true]
    intro c hc
    exact isDigit_of_mem_repr hc
  have hvalue : Nat.ofDigitChars 10 n.val.repr.toList 0 = n.val := by
    rw [Nat.toList_repr, Nat.ofDigitChars_ten_toDigits]
  unfold parseUnsigned
  rw [if_neg (repr_toList_head n.val), if_pos ⟨hne, hall⟩]
  simp only [hvalue, Fin.is_lt, ↓reduceDIte]

theorem repr_ne_empty (n : Nat) : n.repr ≠ "" := by
  intro h
  have hlist := congrArg String.toList h
  rw [Nat.toList_repr] at hlist
  exact Nat.toDigits_ne_nil hlist

theorem eq_of_repr_eq {m n : Nat} (h : m.repr = n.repr) : m = n := by
  have hdigits : Nat.toDigits 10 m = Nat.toDigits 10 n := by
    have hlists := congrArg String.toList h
    rwa [Nat.toList_repr, Nat.toList_repr] at hlists
  calc
    m = Nat.ofDigitChars 10 (Nat.toDigits 10 m) 0 := Nat.ofDigitChars_ten_toDigits.symm
    _ = Nat.ofDigitChars 10 (Nat.toDigits 10 n) 0 := by rw [hdigits]
    _ = n := Nat.ofDigitChars_ten_toDigits

theorem utf8ByteSize_digitChar {n : Nat} (h : n < 10) :
    (String.singleton (Nat.digitChar n)).utf8ByteSize = 1 := by
  have hsize : ∀ digit < 10, (Nat.digitChar digit).utf8Size = 1 := by decide
  rw [String.utf8ByteSize_singleton, hsize n h]

theorem utf8ByteSize_repr_le {n k : Nat} (hk : 0 < k) (h : n < 10 ^ k) :
    n.repr.utf8ByteSize ≤ k := by
  induction k generalizing n with
  | zero => omega
  | succ k ih =>
    by_cases hsmall : n < 10
    · rw [Nat.repr_of_lt hsmall]
      have hdigit := utf8ByteSize_digitChar hsmall
      omega
    · rw [Nat.repr_of_ge (by omega), String.utf8ByteSize_append]
      have hdigit := utf8ByteSize_digitChar (Nat.mod_lt n (by decide : 10 > 0))
      have hpos : 0 < k := by
        by_contra hzero
        have hone : k = 0 := by omega
        rw [hone] at h
        omega
      have hrest := @ih (n / 10) hpos (by rw [Nat.pow_succ] at h; omega)
      omega

def indentation (depth : Nat) : String := "\n" ++ String.ofList (List.replicate depth '\t')

theorem utf8ByteSize_tabs (depth : Nat) :
    (String.ofList (List.replicate depth '\t')).utf8ByteSize = depth := by
  induction depth with
  | zero => rfl
  | succ depth ih =>
    have htab : (String.ofList ['\t']).utf8ByteSize = 1 := rfl
    have hsplit : List.replicate (depth + 1) '\t' = ['\t'] ++ List.replicate depth '\t' := rfl
    rw [hsplit, String.ofList_append, String.utf8ByteSize_append, ih, htab, Nat.add_comm]

theorem utf8ByteSize_indentation (depth : Nat) :
    (indentation depth).utf8ByteSize = depth + 1 := by
  have hline : "\n".utf8ByteSize = 1 := rfl
  unfold indentation
  rw [String.utf8ByteSize_append, hline, utf8ByteSize_tabs, Nat.add_comm]

end Nexus
