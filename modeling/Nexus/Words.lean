import Mathlib.Algebra.GroupWithZero.Nat

/-! Literals of two parties and of the machine words, and the membership of a word in a list. -/

namespace Nexus

instance neZero_two : NeZero 2 := ⟨by decide⟩

instance neZero_word8 : NeZero (2 ^ 8) := ⟨by decide⟩

instance neZero_word16 : NeZero (2 ^ 16) := ⟨by decide⟩

instance neZero_word32 : NeZero (2 ^ 32) := ⟨by decide⟩

instance neZero_word64 : NeZero (2 ^ 64) := ⟨by decide⟩

instance lawfulBEq_word32 : LawfulBEq (BitVec 32) := inferInstance

end Nexus
