import Mathlib.Algebra.BigOperators.Group.List.Basic
import Mathlib.Algebra.GroupWithZero.Nat
import Mathlib.Data.List.DropRight
import Mathlib.Data.List.Infix

namespace Nexus

/-! A text is a list of characters. Its places are counted in the bytes of its UTF-8 form. -/

abbrev Text := List Char

namespace Text

def asciiUppercase (text : Text) : Text := text.map Char.toUpper

def asciiLowercase (text : Text) : Text := text.map Char.toLower

def eqIgnoreAsciiCase (text other : Text) : Bool := text.map Char.toLower = other.map Char.toLower

/-- The characters with the Unicode property `White_Space`. -/
def isWhiteSpace (c : Char) : Bool :=
  (0x9 ≤ c.toNat ∧ c.toNat ≤ 0xD) ∨ c.toNat = 0x20 ∨ c.toNat = 0x85 ∨ c.toNat = 0xA0 ∨
    c.toNat = 0x1680 ∨ (0x2000 ≤ c.toNat ∧ c.toNat ≤ 0x200A) ∨ c.toNat = 0x2028 ∨
    c.toNat = 0x2029 ∨ c.toNat = 0x202F ∨ c.toNat = 0x205F ∨ c.toNat = 0x3000

def isControl (c : Char) : Bool := c.toNat ≤ 0x1F ∨ (0x7F ≤ c.toNat ∧ c.toNat ≤ 0x9F)

def trim (text : Text) : Text := (text.dropWhile isWhiteSpace).rdropWhile isWhiteSpace

def byteLength (text : Text) : Nat := (text.map Char.utf8Size).sum

def bytes (text : Text) : List UInt8 := text.flatMap String.utf8EncodeChar

/-- `&text[n..]`. A slice within a character or past the end is a panic, which is `none`. -/
def sliceFrom : Text → Nat → Option Text
  | text, 0 => some text
  | [], _ + 1 => none
  | c :: rest, n + 1 => if c.utf8Size ≤ n + 1 then sliceFrom rest (n + 1 - c.utf8Size) else none

def sliceTo : Text → Nat → Option Text
  | _, 0 => some []
  | [], _ + 1 => none
  | c :: rest, n + 1 =>
    if c.utf8Size ≤ n + 1 then (sliceTo rest (n + 1 - c.utf8Size)).map (List.cons c) else none

def find (p : Char → Bool) : Text → Option Nat
  | [] => none
  | c :: rest => if p c then some 0 else (find p rest).map (· + c.utf8Size)

def splitOnce (pattern : Text) : Text → Option (Text × Text)
  | [] => if pattern = [] then some ([], []) else none
  | c :: rest =>
    if pattern <+: c :: rest then some ([], (c :: rest).drop pattern.length)
    else (splitOnce pattern rest).map fun parts => (c :: parts.1, parts.2)

def rsplitOnce (pattern : Char) : Text → Option (Text × Text)
  | [] => none
  | c :: rest =>
    match rsplitOnce pattern rest with
    | some (front, back) => some (c :: front, back)
    | none => if c = pattern then some ([], rest) else none

def contains (text pattern : Text) : Bool := pattern <:+: text

@[simp] theorem byteLength_nil : byteLength [] = 0 := rfl

@[simp] theorem byteLength_cons (c : Char) (rest : Text) :
    byteLength (c :: rest) = c.utf8Size + byteLength rest := rfl

@[simp] theorem byteLength_append (front back : Text) :
    byteLength (front ++ back) = byteLength front + byteLength back := by
  unfold byteLength
  rw [List.map_append, List.sum_append]

theorem sliceFrom_zero (text : Text) : sliceFrom text 0 = some text := by
  cases text <;> rfl

theorem sliceTo_zero (text : Text) : sliceTo text 0 = some [] := by
  cases text <;> rfl

theorem sliceFrom_cons (c : Char) (rest : Text) (n : Nat) :
    sliceFrom (c :: rest) (c.utf8Size + n) = sliceFrom rest n := by
  have hpos := c.utf8Size_pos
  obtain ⟨k, hk⟩ : ∃ k, c.utf8Size + n = k + 1 := ⟨c.utf8Size + n - 1, by omega⟩
  rw [hk, sliceFrom, if_pos (by omega)]
  congr 1
  omega

theorem sliceTo_cons (c : Char) (rest : Text) (n : Nat) :
    sliceTo (c :: rest) (c.utf8Size + n) = (sliceTo rest n).map (List.cons c) := by
  have hpos := c.utf8Size_pos
  obtain ⟨k, hk⟩ : ∃ k, c.utf8Size + n = k + 1 := ⟨c.utf8Size + n - 1, by omega⟩
  rw [hk, sliceTo, if_pos (by omega)]
  congr 2
  omega

theorem sliceFrom_append (front back : Text) :
    sliceFrom (front ++ back) front.byteLength = some back := by
  induction front with
  | nil => exact sliceFrom_zero back
  | cons _ _ ih =>
    rw [List.cons_append, byteLength_cons, sliceFrom_cons]
    exact ih

theorem sliceTo_append (front back : Text) :
    sliceTo (front ++ back) front.byteLength = some front := by
  induction front with
  | nil => exact sliceTo_zero back
  | cons _ _ ih =>
    rw [List.cons_append, byteLength_cons, sliceTo_cons, ih]
    rfl

theorem find_getD_eq (p : Char → Bool) (text : Text) :
    (find p text).getD text.byteLength = byteLength (text.takeWhile fun c => !p c) := by
  induction text with
  | nil => rfl
  | cons c rest ih =>
    rw [find, List.takeWhile_cons]
    by_cases hp : p c = true
    · simp [hp]
    · rw [if_neg hp, if_pos (by simpa using hp), byteLength_cons, byteLength_cons, ← ih]
      cases find p rest with
      | none => rfl
      | some place => exact Nat.add_comm place c.utf8Size

theorem sliceTo_find (p : Char → Bool) (text : Text) :
    sliceTo text ((find p text).getD text.byteLength) = some (text.takeWhile fun c => !p c) := by
  have hsplit := List.takeWhile_append_dropWhile (p := fun c => !p c) (l := text)
  have hslice := sliceTo_append (text.takeWhile fun c => !p c) (text.dropWhile fun c => !p c)
  rw [hsplit] at hslice
  rw [find_getD_eq]
  exact hslice

variable {p : Char → Bool} {front : Text} {c : Char}

theorem find_append (hfront : ∀ x ∈ front, p x = false) (hc : p c = true) (back : Text) :
    find p (front ++ c :: back) = some (byteLength front) := by
  induction front with
  | nil => simp [find, hc]
  | cons _ _ ih =>
    obtain ⟨hx, hrest⟩ := List.forall_mem_cons.mp hfront
    rw [List.cons_append, find, if_neg (by simp [hx]), ih hrest, Option.map_some, byteLength_cons,
      Nat.add_comm]

variable {text : Text}

theorem find_eq_none (h : ∀ x ∈ text, p x = false) : find p text = none := by
  induction text with
  | nil => rfl
  | cons _ _ ih =>
    obtain ⟨hx, hrest⟩ := List.forall_mem_cons.mp h
    rw [find, if_neg (by simp [hx]), ih hrest]
    rfl

theorem rsplitOnce_eq_none {pattern : Char} (h : pattern ∉ text) :
    rsplitOnce pattern text = none := by
  induction text with
  | nil => rfl
  | cons _ _ ih =>
    rw [List.mem_cons, not_or] at h
    rw [rsplitOnce, ih h.2]
    simp [Ne.symm h.1]

variable {back : Text}

theorem rsplitOnce_of_last {pattern : Char} (h : pattern ∉ back) (front : Text) :
    rsplitOnce pattern (front ++ pattern :: back) = some (front, back) := by
  induction front with
  | nil =>
    show rsplitOnce pattern (pattern :: back) = _
    rw [rsplitOnce, rsplitOnce_eq_none h]
    simp
  | cons _ _ ih =>
    rw [List.cons_append, rsplitOnce, ih]

variable {pattern : Text}

theorem splitOnce_some (h : splitOnce pattern text = some (front, back)) :
    text = front ++ pattern ++ back := by
  induction text generalizing front with
  | nil =>
    rw [splitOnce] at h
    split at h
    next hnil =>
      cases h
      simp [hnil]
    next => cases h
  | cons _ _ ih =>
    rw [splitOnce] at h
    split at h
    next hfront =>
      cases h
      obtain ⟨_, htail⟩ := hfront
      rw [← htail, List.drop_left]
      rfl
    next =>
      obtain ⟨⟨_, _⟩, hrest, heq⟩ := Option.map_eq_some_iff.mp h
      cases heq
      rw [ih hrest]
      rfl

variable {x : Char}

theorem splitOnce_of_first (h : x ∉ front) (back : Text) :
    splitOnce (x :: pattern) (front ++ (x :: pattern) ++ back) = some (front, back) := by
  induction front with
  | nil =>
    show splitOnce (x :: pattern) (x :: (pattern ++ back)) = _
    rw [splitOnce, if_pos (by simp)]
    simp
  | cons c rest ih =>
    rw [List.mem_cons, not_or] at h
    obtain ⟨hne, hrest⟩ := h
    show splitOnce (x :: pattern) (c :: (rest ++ (x :: pattern) ++ back)) = _
    rw [splitOnce, if_neg fun hfront => hne (List.cons_prefix_cons.mp hfront).1, ih hrest]
    rfl

theorem infix_append_cons (hx : x ∉ pattern) (h : pattern <:+: front ++ x :: back) :
    pattern <:+: front ∨ pattern <:+: back := by
  obtain ⟨before, after, heq⟩ := h
  rw [List.append_assoc] at heq
  rcases List.append_eq_append_iff.mp heq with ⟨middle, hfront, hmiddle⟩ | ⟨middle, _, hmiddle⟩
  · -- The pattern starts within the front.
    rcases List.append_eq_append_iff.mp hmiddle with ⟨more, hmore, _⟩ | ⟨more, hmore, hrest⟩
    · refine Or.inl ⟨before, more, ?_⟩
      rw [hfront, hmore, List.append_assoc]
    · cases more with
      | nil =>
        refine Or.inl ⟨before, [], ?_⟩
        rw [List.append_nil] at hmore ⊢
        rw [hfront, hmore]
      | cons =>
        cases hrest
        rw [hmore] at hx
        exact absurd (List.mem_append_right _ List.mem_cons_self) hx
  · -- It starts at the character or after it.
    cases middle with
    | nil =>
      cases pattern with
      | nil => exact Or.inl ⟨[], front, rfl⟩
      | cons =>
        cases hmiddle
        exact absurd List.mem_cons_self hx
    | cons y middle =>
      cases hmiddle
      exact Or.inr ⟨middle, after, List.append_assoc ..⟩

theorem utf8Size_toLower (c : Char) : c.toLower.utf8Size = c.utf8Size := by
  unfold Char.toLower
  split
  next h =>
    have hbefore : c.utf8Size = 1 := Char.utf8Size_eq_one_iff.mpr
      (UInt32.le_trans h.2 (by decide : 'Z'.val ≤ 127))
    rw [hbefore, Char.utf8Size_eq_one_iff]
    obtain ⟨hlow, hhigh⟩ := h
    rw [ge_iff_le, UInt32.le_iff_toNat_le] at hlow
    rw [UInt32.le_iff_toNat_le] at hhigh ⊢
    change (c.val + ('a'.val - 'A'.val)).toNat ≤ 127
    rw [UInt32.toNat_add]
    change 65 ≤ c.val.toNat at hlow
    change c.val.toNat ≤ 90 at hhigh
    change (c.val.toNat + 32) % 4294967296 ≤ 127
    omega
  next => rfl

@[simp] theorem byteLength_asciiLowercase (text : Text) :
    text.asciiLowercase.byteLength = text.byteLength := by
  unfold asciiLowercase byteLength
  rw [List.map_map]
  exact congrArg List.sum (List.map_congr_left fun c _ => utf8Size_toLower c)

theorem bytes_cons (c : Char) (rest : Text) :
    bytes (c :: rest) = String.utf8EncodeChar c ++ bytes rest := List.flatMap_cons

theorem bytes_cons_ascii (h : c.toNat < 128) (rest : Text) :
    bytes (c :: rest) = UInt8.ofNat c.toNat :: bytes rest := by
  have hle : c.val.toNat ≤ 127 := Nat.le_of_lt_succ h
  rw [bytes_cons]
  unfold String.utf8EncodeChar
  dsimp only
  rw [if_pos hle]
  rfl

theorem bytes_cons_wide (h : 128 ≤ c.toNat) (rest : Text) :
    ∃ byte tail, bytes (c :: rest) = byte :: tail ∧ 128 ≤ byte.toNat := by
  have hlt : ¬c.val.toNat ≤ 127 := Nat.not_le_of_lt h
  rw [bytes_cons]
  unfold String.utf8EncodeChar
  dsimp only
  rw [if_neg hlt]
  split
  · refine ⟨_, _, rfl, ?_⟩
    rw [UInt8.toNat_ofNat']
    omega
  · split
    · refine ⟨_, _, rfl, ?_⟩
      rw [UInt8.toNat_ofNat']
      omega
    · refine ⟨_, _, rfl, ?_⟩
      rw [UInt8.toNat_ofNat']
      omega

def isAsciiDigit (byte : UInt8) : Bool := 48 ≤ byte ∧ byte ≤ 57

theorem isAsciiDigit_ascii : ∀ n < 128, isAsciiDigit (UInt8.ofNat n) = (Char.ofNat n).isDigit := by
  decide +kernel

theorem all_isAsciiDigit (text : Text) : text.bytes.all isAsciiDigit = text.all Char.isDigit := by
  induction text with
  | nil => rfl
  | cons c rest ih =>
    by_cases hc : c.toNat < 128
    · rw [bytes_cons_ascii hc, List.all_cons, List.all_cons, ih, isAsciiDigit_ascii c.toNat hc,
        Char.ofNat_toNat]
    · obtain ⟨byte, _, hbytes, _⟩ := bytes_cons_wide (Nat.le_of_not_lt hc) rest
      have hnotByte : isAsciiDigit byte = false := by
        unfold isAsciiDigit
        refine decide_eq_false fun h => ?_
        have hle : byte.toNat ≤ 57 := UInt8.le_iff_toNat_le.mp h.2
        omega
      have hnotDigit : c.isDigit = false := by
        unfold Char.isDigit
        rw [Bool.and_eq_false_iff]
        refine Or.inr (decide_eq_false fun h => hc ?_)
        have hle : c.val.toNat ≤ 57 := UInt32.le_iff_toNat_le.mp h
        exact Nat.lt_of_le_of_lt hle (by decide)
      rw [hbytes, List.all_cons, List.all_cons, hnotByte, hnotDigit, Bool.false_and, Bool.false_and]

end Text

def hexDigitValue (c : Char) : Option Nat :=
  if '0' ≤ c ∧ c ≤ '9' then some (c.toNat - '0'.toNat)
  else if 'a' ≤ c ∧ c ≤ 'f' then some (c.toNat - 'a'.toNat + 10)
  else if 'A' ≤ c ∧ c ≤ 'F' then some (c.toNat - 'A'.toNat + 10)
  else none

end Nexus
