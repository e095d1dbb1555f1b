import Mathlib.Data.Nat.Digits.Defs
import Nexus.Text

namespace Nexus

namespace Control

open Text

inductive LegacyIntegerError where
  | invalid
  | outOfRange
  deriving DecidableEq

def asciiDigit (byte : UInt8) : Option UInt8 :=
  if 48 ≤ byte ∧ byte ≤ 57 then some (byte - 48)
  else if 97 ≤ byte ∧ byte ≤ 102 then some (byte - 97 + 10)
  else if 65 ≤ byte ∧ byte ≤ 70 then some (byte - 65 + 10)
  else none

/-- `u64::checked_mul` and `u64::checked_add`. -/
def checkedStep (magnitude base digit : Nat) : Option Nat :=
  if magnitude * base < 2 ^ 64 ∧ magnitude * base + digit < 2 ^ 64 then
    some (magnitude * base + digit)
  else none

def scanDigits (base limit : Nat) :
    List UInt8 → Bool → Nat → Except LegacyIntegerError (Bool × Nat)
  | [], parsedAny, magnitude => .ok (parsedAny, magnitude)
  | byte :: rest, parsedAny, magnitude =>
    match asciiDigit byte with
    | none => .ok (parsedAny, magnitude)
    | some digit =>
      if base ≤ digit.toNat then .ok (parsedAny, magnitude)
      else
        match checkedStep magnitude base digit.toNat with
        | none => .error .outOfRange
        | some magnitude =>
          if limit < magnitude then .error .outOfRange else scanDigits base limit rest true magnitude

def i32Max : Nat := 2 ^ 31 - 1

def splitSign (value : Text) : Option (Bool × Text) :=
  match value.bytes.head? with
  | some 45 => (value.sliceFrom 1).map fun unsigned => (true, unsigned)
  | some 43 => (value.sliceFrom 1).map fun unsigned => (false, unsigned)
  | _ => some (false, value)

def hexadecimalPrefix (bytes : List UInt8) : Bool :=
  2 < bytes.length ∧ bytes[0]? = some 48 ∧ (bytes[1]? = some 120 ∨ bytes[1]? = some 88) ∧
    bytes[2]?.any fun byte => (asciiDigit byte).isSome

def splitBase (unsigned : Text) : Option (Nat × Text) := do
  let first ← unsigned.bytes[0]?
  if hexadecimalPrefix unsigned.bytes then
    let digits ← unsigned.sliceFrom 2
    return (16, digits)
  else if first = 48 then return (8, unsigned)
  else return (10, unsigned)

/-- No slice or index may be out of bounds; `none` is such a panic. -/
def parseLegacyAddonId (value : Text) : Option (Except LegacyIntegerError UInt32) := do
  let value := value.dropWhile isWhiteSpace
  let (negative, unsigned) ← splitSign value
  if unsigned = [] then return .error .invalid
  let (base, digits) ← splitBase unsigned
  let limit := if negative then i32Max + 1 else i32Max
  match scanDigits base limit digits.bytes false 0 with
  | .error error => return .error error
  | .ok (parsedAny, magnitude) =>
    if parsedAny = false then return .error .invalid
    let signed : Int := if negative then -(magnitude : Int) else magnitude
    return .ok (Int32.ofInt signed).toUInt32

def signed : Text → Bool × Text
  | '-' :: rest => (true, rest)
  | '+' :: rest => (false, rest)
  | text => (false, text)

def isHexadecimal : Text → Bool
  | '0' :: x :: digit :: _ => (x = 'x' ∨ x = 'X') ∧ (hexDigitValue digit).isSome
  | _ => false

def detectBase (text : Text) : Nat × Text :=
  if isHexadecimal text then (16, text.drop 2)
  else if text.head? = some '0' then (8, text)
  else (10, text)

def isDigitOf (base : Nat) (c : Char) : Bool := (hexDigitValue c).any (· < base)

structure LeadingInteger where
  negative : Bool
  base : Nat
  numeral : Text

def leadingInteger (text : Text) : LeadingInteger :=
  let (negative, unsigned) := signed (text.dropWhile isWhiteSpace)
  let (base, digits) := detectBase unsigned
  ⟨negative, base, digits.takeWhile (isDigitOf base)⟩

namespace LeadingInteger

def magnitude (integer : LeadingInteger) : Nat :=
  Nat.ofDigits integer.base (integer.numeral.filterMap hexDigitValue).reverse

def value (integer : LeadingInteger) : Int :=
  if integer.negative then -(integer.magnitude : Int) else integer.magnitude

def InRange (integer : LeadingInteger) : Prop :=
  -(2 ^ 31) ≤ integer.value ∧ integer.value < 2 ^ 31

end LeadingInteger

theorem asciiDigit_wide {byte : UInt8} (h : 128 ≤ byte.toNat) : asciiDigit byte = none := by
  unfold asciiDigit
  simp only [UInt8.le_iff_toNat_le]
  rw [if_neg, if_neg, if_neg]
  · rintro ⟨_, hle⟩
    exact absurd (h.trans hle) (by decide)
  · rintro ⟨_, hle⟩
    exact absurd (h.trans hle) (by decide)
  · rintro ⟨_, hle⟩
    exact absurd (h.trans hle) (by decide)

variable {c : Char}

theorem hexDigitValue_wide (h : 128 ≤ c.toNat) : hexDigitValue c = none := by
  have hle (bound : Char) (hbound : bound.toNat < 128) : ¬c ≤ bound := by
    intro hc
    have : c.toNat ≤ bound.toNat := hc
    omega
  unfold hexDigitValue
  rw [if_neg fun h => hle '9' (by decide) h.2, if_neg fun h => hle 'f' (by decide) h.2,
    if_neg fun h => hle 'F' (by decide) h.2]

theorem asciiDigit_ascii : ∀ n < 128, (asciiDigit (UInt8.ofNat n)).map UInt8.toNat =
    hexDigitValue (Char.ofNat n) := by
  decide +kernel

theorem asciiDigit_eq (h : c.toNat < 128) :
    (asciiDigit (UInt8.ofNat c.toNat)).map UInt8.toNat = hexDigitValue c := by
  rw [asciiDigit_ascii c.toNat h, Char.ofNat_toNat]

variable {base : Nat}

theorem isDigitOf_iff :
    isDigitOf base c = true ↔ ∃ digit, hexDigitValue c = some digit ∧ digit < base := by
  unfold isDigitOf
  rw [Option.any_eq_true]
  constructor
  · rintro ⟨digit, hread, hlt⟩
    exact ⟨digit, hread, of_decide_eq_true hlt⟩
  · rintro ⟨digit, hread, hlt⟩
    exact ⟨digit, hread, decide_eq_true hlt⟩

def accumulate (base : Nat) (magnitude : Nat) (digits : List Nat) : Nat :=
  digits.foldl (fun magnitude digit => magnitude * base + digit) magnitude

theorem le_accumulate (hbase : 0 < base) (magnitude : Nat) (digits : List Nat) :
    magnitude ≤ accumulate base magnitude digits := by
  unfold accumulate
  induction digits generalizing magnitude with
  | nil => exact le_rfl
  | cons digit _ ih =>
    have hstep : magnitude ≤ magnitude * base + digit :=
      (Nat.le_mul_of_pos_right magnitude hbase).trans (Nat.le_add_right _ _)
    exact hstep.trans (ih _)

theorem accumulate_zero (base : Nat) (digits : List Nat) :
    accumulate base 0 digits = Nat.ofDigits base digits.reverse := by
  unfold accumulate
  rw [Nat.ofDigits_eq_foldr, List.foldr_reverse]
  congr 1
  funext magnitude digit
  rw [Nat.cast_id, Nat.mul_comm, Nat.add_comm]

def numeralDigits (base : Nat) (text : Text) : List Nat :=
  (text.takeWhile (isDigitOf base)).filterMap hexDigitValue

variable {limit magnitude : Nat} {parsedAny : Bool}

theorem scanDigits_stop (rest : Text) (h : isDigitOf base c = false) :
    scanDigits base limit (bytes (c :: rest)) parsedAny magnitude = .ok (parsedAny, magnitude) := by
  by_cases hascii : c.toNat < 128
  · have hdigit := asciiDigit_eq hascii
    unfold isDigitOf at h
    rw [← hdigit] at h
    rw [bytes_cons_ascii hascii, scanDigits]
    cases hread : asciiDigit (UInt8.ofNat c.toNat) with
    | none => rfl
    | some digit =>
      rw [hread] at h
      have hge : base ≤ digit.toNat := by simpa using h
      dsimp only
      rw [if_pos hge]
  · obtain ⟨_, _, hbytes, hbyte⟩ := bytes_cons_wide (Nat.le_of_not_lt hascii) rest
    rw [hbytes, scanDigits, asciiDigit_wide hbyte]

theorem scanDigits_digit {digit : Nat} (rest : Text) (hread : hexDigitValue c = some digit)
    (hdigit : digit < base) (hfits : magnitude * base + digit < 2 ^ 64) :
    scanDigits base limit (bytes (c :: rest)) parsedAny magnitude =
      if limit < magnitude * base + digit then .error .outOfRange
      else scanDigits base limit (bytes rest) true (magnitude * base + digit) := by
  have hascii : c.toNat < 128 := by
    by_contra hwide
    rw [hexDigitValue_wide (Nat.le_of_not_lt hwide)] at hread
    cases hread
  have heq := asciiDigit_eq hascii
  rw [hread] at heq
  obtain ⟨value, hvalue, rfl⟩ := Option.map_eq_some_iff.mp heq
  have hstep : checkedStep magnitude base value.toNat = some (magnitude * base + value.toNat) :=
    if_pos ⟨by omega, hfits⟩
  rw [bytes_cons_ascii hascii, scanDigits, hvalue]
  dsimp only
  rw [if_neg (Nat.not_le_of_lt hdigit), hstep]

theorem scanDigits_eq (hpos : 0 < base) (hbase : base ≤ 16) (hlimit : limit ≤ 2 ^ 31)
    (text : Text) (hmagnitude : magnitude ≤ limit) (parsedAny : Bool) :
    scanDigits base limit text.bytes parsedAny magnitude =
      if limit < accumulate base magnitude (numeralDigits base text) then .error .outOfRange
      else .ok (parsedAny || decide (text.takeWhile (isDigitOf base) ≠ []),
        accumulate base magnitude (numeralDigits base text)) := by
  induction text generalizing magnitude parsedAny with
  | nil =>
    have hnot : ¬limit < accumulate base magnitude (numeralDigits base []) :=
      Nat.not_lt_of_le hmagnitude
    rw [if_neg hnot]
    show Except.ok (parsedAny, magnitude) = _
    simp [numeralDigits, accumulate]
  | cons c rest ih =>
    by_cases hc : isDigitOf base c = true
    · obtain ⟨digit, hread, hlt⟩ := isDigitOf_iff.mp hc
      have hdigits : numeralDigits base (c :: rest) = digit :: numeralDigits base rest := by
        unfold numeralDigits
        rw [List.takeWhile_cons_of_pos hc, List.filterMap_cons_some hread]
      have htotal : accumulate base magnitude (digit :: numeralDigits base rest) =
          accumulate base (magnitude * base + digit) (numeralDigits base rest) := rfl
      have hproduct : magnitude * base ≤ 2 ^ 31 * 16 :=
        Nat.mul_le_mul (hmagnitude.trans hlimit) hbase
      rw [scanDigits_digit rest hread hlt (by omega), hdigits, htotal,
        List.takeWhile_cons_of_pos hc]
      by_cases hover : limit < magnitude * base + digit
      · have hlater := le_accumulate hpos (magnitude * base + digit) (numeralDigits base rest)
        rw [if_pos hover, if_pos (hover.trans_le hlater)]
      · rw [if_neg hover, ih (Nat.le_of_not_lt hover) true]
        simp
    · have hnone : (c :: rest).takeWhile (isDigitOf base) = [] :=
        List.takeWhile_cons_of_neg hc
      rw [scanDigits_stop rest (by simpa using hc)]
      have hnot : ¬limit < accumulate base magnitude [] := Nat.not_lt_of_le hmagnitude
      unfold numeralDigits
      rw [hnone, List.filterMap_nil, if_neg hnot]
      simp [accumulate]

theorem toNat_ofNat_ascii : ∀ n < 128, (Char.ofNat n).toNat = n := by
  decide +kernel

theorem head_bytes_iff (text : Text) {n : Nat} (hn : n < 128) :
    text.bytes.head? = some (UInt8.ofNat n) ↔ text.head? = some (Char.ofNat n) := by
  cases text with
  | nil => simp [bytes]
  | cons c rest =>
    by_cases hc : c.toNat < 128
    · rw [bytes_cons_ascii hc, List.head?_cons, List.head?_cons, Option.some_inj, Option.some_inj]
      constructor
      · intro h
        have hnat := congrArg UInt8.toNat h
        rw [UInt8.toNat_ofNat', UInt8.toNat_ofNat'] at hnat
        have heq : c.toNat = n := by omega
        rw [← heq, Char.ofNat_toNat]
      · rintro rfl
        rw [toNat_ofNat_ascii n hn]
    · obtain ⟨_, _, hbytes, hbyte⟩ := bytes_cons_wide (Nat.le_of_not_lt hc) rest
      rw [hbytes, List.head?_cons, List.head?_cons, Option.some_inj, Option.some_inj]
      constructor
      · rintro rfl
        rw [UInt8.toNat_ofNat'] at hbyte
        omega
      · rintro rfl
        rw [toNat_ofNat_ascii n hn] at hc
        exact absurd hn hc

theorem sliceFrom_one (h : c.utf8Size = 1) (rest : Text) : sliceFrom (c :: rest) 1 = some rest := by
  have hslice := sliceFrom_cons c rest 0
  rw [h, sliceFrom_zero] at hslice
  exact hslice

theorem splitSign_eq (value : Text) : splitSign value = some (signed value) := by
  have hminus := head_bytes_iff value (n := 45) (by decide)
  have hplus := head_bytes_iff value (n := 43) (by decide)
  unfold splitSign
  split
  next h =>
    obtain ⟨rest, rfl⟩ := List.head?_eq_some_iff.mp (hminus.mp h)
    exact congrArg _ (sliceFrom_one (by decide) rest)
  next h =>
    obtain ⟨rest, rfl⟩ := List.head?_eq_some_iff.mp (hplus.mp h)
    exact congrArg _ (sliceFrom_one (by decide) rest)
  next hnotMinus hnotPlus =>
    unfold signed
    split
    next => exact absurd (hminus.mpr rfl) hnotMinus
    next => exact absurd (hplus.mpr rfl) hnotPlus
    next => rfl

theorem head_isHexdigit (text : Text) :
    (text.bytes.head?.any fun byte => (asciiDigit byte).isSome) =
      text.head?.any fun c => (hexDigitValue c).isSome := by
  cases text with
  | nil => rfl
  | cons c rest =>
    by_cases hc : c.toNat < 128
    · rw [bytes_cons_ascii hc]
      show (asciiDigit (UInt8.ofNat c.toNat)).isSome = (hexDigitValue c).isSome
      rw [← asciiDigit_eq hc, Option.isSome_map]
    · obtain ⟨byte, _, hbytes, hbyte⟩ := bytes_cons_wide (Nat.le_of_not_lt hc) rest
      rw [hbytes]
      show (asciiDigit byte).isSome = (hexDigitValue c).isSome
      rw [asciiDigit_wide hbyte, hexDigitValue_wide (Nat.le_of_not_lt hc)]
      rfl

theorem hexadecimalPrefix_eq (text : Text) : hexadecimalPrefix text.bytes = isHexadecimal text := by
  by_cases hzero : text.head? = some '0'
  · obtain ⟨tail, rfl⟩ := List.head?_eq_some_iff.mp hzero
    have hbytes : bytes ('0' :: tail) = 48 :: bytes tail := bytes_cons_ascii (by decide) tail
    have hlower := head_bytes_iff tail (n := 120) (by decide)
    have hupper := head_bytes_iff tail (n := 88) (by decide)
    by_cases hsecond : tail.head? = some 'x' ∨ tail.head? = some 'X'
    · obtain ⟨x, more, rfl, hx⟩ : ∃ x more, tail = x :: more ∧ (x = 'x' ∨ x = 'X') := by
        rcases hsecond with hlow | hup
        · obtain ⟨more, rfl⟩ := List.head?_eq_some_iff.mp hlow
          exact ⟨'x', more, rfl, Or.inl rfl⟩
        · obtain ⟨more, rfl⟩ := List.head?_eq_some_iff.mp hup
          exact ⟨'X', more, rfl, Or.inr rfl⟩
      have hxBytes : bytes (x :: more) = UInt8.ofNat x.toNat :: bytes more := by
        refine bytes_cons_ascii ?_ more
        rcases hx with rfl | rfl <;> decide
      have hxByte : UInt8.ofNat x.toNat = 120 ∨ UInt8.ofNat x.toNat = 88 := by
        rcases hx with rfl | rfl
        · exact Or.inl rfl
        · exact Or.inr rfl
      have hthird := head_isHexdigit more
      unfold hexadecimalPrefix
      rw [hbytes, hxBytes]
      cases more with
      | nil =>
        rw [List.head?_eq_getElem?] at hthird
        simp [isHexadecimal, bytes]
      | cons digit rest =>
        have hlength : (bytes (digit :: rest)).head? = (bytes (digit :: rest))[0]? :=
          List.head?_eq_getElem?
        rw [hlength] at hthird
        have hsome : 0 < (bytes (digit :: rest)).length := by
          rw [bytes_cons, List.length_append, String.length_utf8EncodeChar]
          have := digit.utf8Size_pos
          omega
        simp only [List.getElem?_cons_zero, List.getElem?_cons_succ, List.length_cons, hthird,
          isHexadecimal, List.head?_cons, Option.any_some]
        simp [hx, hxByte, hsome]
    · have hfirst : ¬((bytes tail)[0]? = some 120 ∨ (bytes tail)[0]? = some 88) := by
        rw [← List.head?_eq_getElem?]
        rintro (h | h)
        · exact hsecond (Or.inl (hlower.mp h))
        · exact hsecond (Or.inr (hupper.mp h))
      have hnotHex : isHexadecimal ('0' :: tail) = false := by
        cases tail with
        | nil => rfl
        | cons x more =>
          cases more with
          | nil => rfl
          | cons =>
            have hne : ¬(x = 'x' ∨ x = 'X') := by simpa using hsecond
            simp [isHexadecimal, hne]
      unfold hexadecimalPrefix
      rw [hbytes, hnotHex]
      simp only [List.getElem?_cons_succ, hfirst, false_and, and_false, decide_false]
  · have hbytes : text.bytes[0]? ≠ some 48 := by
      rw [← List.head?_eq_getElem?]
      exact fun h => hzero ((head_bytes_iff text (n := 48) (by decide)).mp h)
    have hnotHex : isHexadecimal text = false := by
      unfold isHexadecimal
      split
      next => exact absurd rfl hzero
      next => rfl
    unfold hexadecimalPrefix
    rw [hnotHex]
    simp only [hbytes, false_and, and_false, decide_false]

theorem splitBase_eq {text : Text} (h : text ≠ []) : splitBase text = some (detectBase text) := by
  obtain ⟨byte, hbyte⟩ : ∃ byte, text.bytes[0]? = some byte := by
    obtain ⟨c, rest, rfl⟩ := List.exists_cons_of_ne_nil h
    have hlength : 0 < (bytes (c :: rest)).length := by
      rw [bytes_cons, List.length_append, String.length_utf8EncodeChar]
      have := c.utf8Size_pos
      omega
    exact ⟨_, List.getElem?_eq_getElem hlength⟩
  have hzero : byte = 48 ↔ text.head? = some '0' := by
    rw [← head_bytes_iff text (n := 48) (by decide), List.head?_eq_getElem?, hbyte, Option.some_inj]
    rfl
  unfold splitBase detectBase
  rw [hexadecimalPrefix_eq, hbyte, Option.bind_eq_bind, Option.bind_some]
  by_cases hhex : isHexadecimal text = true
  · have hslice : text.sliceFrom 2 = some (text.drop 2) := by
      unfold isHexadecimal at hhex
      split at hhex
      next x digit rest =>
        have hx : x.utf8Size = 1 := by
          have hnamed : x = 'x' ∨ x = 'X' := (of_decide_eq_true hhex).1
          rcases hnamed with rfl | rfl <;> decide
        have hslice := sliceFrom_append ['0', x] (digit :: rest)
        rw [show byteLength ['0', x] = 2 by rw [byteLength_cons, byteLength_cons, hx]; rfl] at hslice
        exact hslice
      next => cases hhex
    rw [if_pos hhex, if_pos hhex, hslice]
    rfl
  · rw [if_neg hhex, if_neg hhex]
    by_cases hfirst : text.head? = some '0'
    · rw [if_pos hfirst, if_pos (hzero.mpr hfirst)]
      rfl
    · rw [if_neg hfirst, if_neg (mt hzero.mp hfirst)]
      rfl

theorem detectBase_base (text : Text) :
    (detectBase text).1 = 16 ∨ (detectBase text).1 = 8 ∨ (detectBase text).1 = 10 := by
  unfold detectBase
  split
  · exact Or.inl rfl
  · split
    · exact Or.inr (Or.inl rfl)
    · exact Or.inr (Or.inr rfl)

def answer (integer : LeadingInteger) : Except LegacyIntegerError UInt32 :=
  if integer.numeral = [] then .error .invalid
  else if integer.value < -(2 ^ 31) ∨ 2 ^ 31 ≤ integer.value then .error .outOfRange
  else .ok (Int32.ofInt integer.value).toUInt32

theorem accumulate_numeralDigits (base : Nat) (text : Text) (negative : Bool) :
    accumulate base 0 (numeralDigits base text) =
      LeadingInteger.magnitude ⟨negative, base, text.takeWhile (isDigitOf base)⟩ :=
  accumulate_zero ..

theorem answer_of_numeral (integer : LeadingInteger) (hnumeral : integer.numeral ≠ [])
    (hlimit : limit = if integer.negative = true then i32Max + 1 else i32Max) :
    answer integer =
      if limit < integer.magnitude then .error .outOfRange
      else .ok (Int32.ofInt integer.value).toUInt32 := by
  have hout : (integer.value < -(2 ^ 31) ∨ 2 ^ 31 ≤ integer.value) ↔ limit < integer.magnitude := by
    rw [hlimit]
    unfold LeadingInteger.value i32Max
    by_cases hnegative : integer.negative = true
    · rw [if_pos hnegative, if_pos hnegative]
      omega
    · rw [if_neg hnegative, if_neg hnegative]
      omega
  unfold answer
  rw [if_neg hnumeral]
  by_cases hover : limit < integer.magnitude
  · rw [if_pos (hout.mpr hover), if_pos hover]
  · rw [if_neg (mt hout.mp hover), if_neg hover]

theorem parseLegacyAddonId_eq (value : Text) :
    parseLegacyAddonId value = some (answer (leadingInteger value)) := by
  unfold parseLegacyAddonId leadingInteger
  dsimp only
  rw [splitSign_eq, Option.bind_eq_bind, Option.bind_some]
  obtain ⟨negative, unsigned⟩ := signed (value.dropWhile isWhiteSpace)
  by_cases hempty : unsigned = []
  · subst hempty
    rfl
  · simp only [if_neg hempty, splitBase_eq hempty, Option.bind_eq_bind, Option.bind_some]
    have hbase := detectBase_base unsigned
    generalize detectBase unsigned = detected at hbase ⊢
    obtain ⟨base, digits⟩ := detected
    dsimp only at hbase ⊢
    have hlimit : (if negative = true then i32Max + 1 else i32Max) ≤ 2 ^ 31 := by
      unfold i32Max
      split <;> omega
    rw [scanDigits_eq (by omega) (by omega) hlimit digits (Nat.zero_le _) false]
    by_cases hnumeral : digits.takeWhile (isDigitOf base) = []
    · have hdigits : numeralDigits base digits = [] := by
        unfold numeralDigits
        rw [hnumeral]
        rfl
      have hzero : accumulate base 0 [] = 0 := rfl
      rw [hdigits, hnumeral, hzero, if_neg (Nat.not_lt_zero _)]
      rfl
    · rw [answer_of_numeral ⟨negative, base, digits.takeWhile (isDigitOf base)⟩
        hnumeral rfl, ← accumulate_numeralDigits base digits negative]
      dsimp only
      by_cases hover : (if negative = true then i32Max + 1 else i32Max) <
          accumulate base 0 (numeralDigits base digits)
      · rw [if_pos hover, if_pos hover]
        rfl
      · have hparsed : (false || decide (digits.takeWhile (isDigitOf base) ≠ [])) = true := by
          simp [hnumeral]
        rw [if_neg hover, if_neg hover, hparsed]
        dsimp only
        rw [if_neg (by simp), accumulate_numeralDigits base digits negative]
        rfl

/-- A legacy identifier is the integer at the start of the text, as `std::stoi` with base 0 reads
it, modulo 2^32; the answer says whether there is no numeral or its value has no 32 bits. -/
theorem legacy_addon_ids_read (value : Text) :
    ∃ result, parseLegacyAddonId value = some result ∧
      (∀ n, result = .ok n ↔ (leadingInteger value).numeral ≠ [] ∧
        (leadingInteger value).InRange ∧ (n.toNat : Int) = (leadingInteger value).value % 2 ^ 32) ∧
      (result = .error .outOfRange ↔
        (leadingInteger value).numeral ≠ [] ∧ ¬(leadingInteger value).InRange) ∧
      (result = .error .invalid ↔ (leadingInteger value).numeral = []) := by
  refine ⟨_, parseLegacyAddonId_eq value, ?_⟩
  generalize leadingInteger value = integer
  have hrange : ¬integer.InRange ↔ integer.value < -(2 ^ 31) ∨ 2 ^ 31 ≤ integer.value := by
    unfold LeadingInteger.InRange
    omega
  have hword (n : UInt32) : (Int32.ofInt integer.value).toUInt32 = n ↔
      (n.toNat : Int) = integer.value % 2 ^ 32 := by
    have hnat : ((Int32.ofInt integer.value).toUInt32.toNat : Int) = integer.value % 2 ^ 32 := by
      show (((BitVec.ofInt 32 integer.value).toNat : Nat) : Int) = _
      rw [BitVec.toNat_ofInt]
      omega
    rw [← hnat, Nat.cast_inj, UInt32.toNat_inj, eq_comm]
  unfold answer
  by_cases hnumeral : integer.numeral = []
  · simp [hnumeral]
  · rw [if_neg hnumeral]
    by_cases hover : integer.value < -(2 ^ 31) ∨ 2 ^ 31 ≤ integer.value
    · rw [if_pos hover]
      have hnot := hrange.mpr hover
      simp [hnumeral, hnot]
    · rw [if_neg hover]
      have hin := not_not.mp (mt hrange.mp hover)
      simp [hnumeral, hin, hword]

example : parseLegacyAddonId " -2147483648tail".toList = some (.ok 2147483648) := by decide +kernel

example : parseLegacyAddonId "0x".toList = some (.ok 0) := by decide +kernel

end Control

end Nexus
