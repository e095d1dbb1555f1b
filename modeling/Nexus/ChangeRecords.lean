import Mathlib.Algebra.Group.Nat.Defs
import Mathlib.Data.List.Basic

namespace Nexus.AddonWatch

structure ChangeKinds where
  bits : BitVec 8
  deriving DecidableEq

namespace ChangeKinds

def CREATED : ChangeKinds := ⟨1 <<< 0⟩
def WRITTEN : ChangeKinds := ⟨1 <<< 1⟩
def RENAMED : ChangeKinds := ⟨1 <<< 2⟩
def DELETED : ChangeKinds := ⟨1 <<< 3⟩
def RESCAN : ChangeKinds := ⟨1 <<< 4⟩

def default : ChangeKinds := ⟨0⟩

def isEmpty (kinds : ChangeKinds) : Prop := kinds.bits = 0

def contains (kinds other : ChangeKinds) : Prop := kinds.bits &&& other.bits = other.bits

def bitor (kinds other : ChangeKinds) : ChangeKinds := ⟨kinds.bits ||| other.bits⟩

instance (kinds : ChangeKinds) : Decidable kinds.isEmpty := inferInstanceAs (Decidable (_ = _))

instance (kinds other : ChangeKinds) : Decidable (kinds.contains other) :=
  inferInstanceAs (Decidable (_ = _))

theorem bitor_assoc (a b c : ChangeKinds) : (a.bitor b).bitor c = a.bitor (b.bitor c) := by
  simp [bitor, BitVec.or_assoc]

@[simp]
theorem default_bitor (kinds : ChangeKinds) : default.bitor kinds = kinds := by
  simp [bitor, default]

@[simp]
theorem bitor_default (kinds : ChangeKinds) : kinds.bitor default = kinds := by
  simp [bitor, default]

variable {kinds other : ChangeKinds}

theorem contains_iff :
    kinds.contains other ↔
      ∀ bit, other.bits.getLsbD bit = true → kinds.bits.getLsbD bit = true := by
  unfold contains
  constructor
  · intro h bit hbit
    have hsame := congrArg (fun bits => bits.getLsbD bit) h
    simpa [hbit] using hsame
  · intro h
    refine BitVec.eq_of_getLsbD_eq fun bit _ => ?_
    rw [BitVec.getLsbD_and]
    cases hbit : other.bits.getLsbD bit
    · simp
    · simp [h bit hbit]

theorem contains_bitor_right (kinds other : ChangeKinds) :
    (kinds.bitor other).contains other := by
  rw [contains_iff]
  intro bit hbit
  simp [bitor, hbit]

variable {part : ChangeKinds}

theorem contains_bitor_left (h : kinds.contains part) (other : ChangeKinds) :
    (kinds.bitor other).contains part := by
  rw [contains_iff] at h ⊢
  intro bit hbit
  simp [bitor, h bit hbit]

theorem contains_rescan_iff : kinds.contains RESCAN ↔ kinds.bits.getLsbD 4 = true := by
  rw [contains_iff]
  constructor
  · intro h
    exact h 4 rfl
  · intro h bit hbit
    have hfour : bit = 4 := by
      have hdigits : RESCAN.bits = BitVec.twoPow 8 4 := rfl
      rw [hdigits, BitVec.getLsbD_twoPow] at hbit
      simp at hbit
      omega
    rw [hfour]
    exact h

theorem contains_rescan_bitor :
    (kinds.bitor other).contains RESCAN ↔ kinds.contains RESCAN ∨ other.contains RESCAN := by
  simp [contains_rescan_iff, bitor]

theorem not_isEmpty_of_contains (h : kinds.contains part) (hpart : ¬ part.isEmpty) :
    ¬ kinds.isEmpty := by
  intro hempty
  unfold contains isEmpty at *
  rw [hempty] at h
  simp at h
  exact hpart h.symm

end ChangeKinds

open ChangeKinds

/-- `u32::from_le_bytes` of the four bytes at the offset, where there are four. -/
def readU32 (buffer : List UInt8) (offset : Nat) : Option Nat := do
  let b0 ← buffer[offset]?
  let b1 ← buffer[offset + 1]?
  let b2 ← buffer[offset + 2]?
  let b3 ← buffer[offset + 3]?
  some (b0.toNat + 2 ^ 8 * b1.toNat + 2 ^ 16 * b2.toNat + 2 ^ 24 * b3.toNat)

structure ChangeRecord where
  nextOffset : Nat
  action : Nat
  fileNameBytes : Nat
  deriving DecidableEq

def readHeader (buffer : List UInt8) (offset : Nat) : Option ChangeRecord := do
  let nextOffset ← readU32 buffer offset
  let action ← readU32 buffer (offset + 4)
  let fileNameBytes ← readU32 buffer (offset + 8)
  some ⟨nextOffset, action, fileNameBytes⟩

@[match_pattern] abbrev FILE_ACTION_ADDED : Nat := 1
@[match_pattern] abbrev FILE_ACTION_REMOVED : Nat := 2
@[match_pattern] abbrev FILE_ACTION_MODIFIED : Nat := 3
@[match_pattern] abbrev FILE_ACTION_RENAMED_OLD_NAME : Nat := 4
@[match_pattern] abbrev FILE_ACTION_RENAMED_NEW_NAME : Nat := 5

def kindOfAction : Nat → ChangeKinds
  | FILE_ACTION_ADDED => CREATED
  | FILE_ACTION_REMOVED => DELETED
  | FILE_ACTION_MODIFIED => WRITTEN
  | FILE_ACTION_RENAMED_OLD_NAME => RENAMED
  | FILE_ACTION_RENAMED_NEW_NAME => RENAMED
  | _ => RESCAN

def recordLength (length offset nextOffset : Nat) : Option Nat :=
  if nextOffset = 0 then some (length - offset)
  else if nextOffset < 12 ∨ nextOffset % 4 ≠ 0 ∨ length < offset + nextOffset then none
  else some nextOffset

/-- What `parse_change_kinds` returns when its loop is over. -/
def orRescan (kinds : ChangeKinds) : ChangeKinds := if kinds.isEmpty then RESCAN else kinds

theorem recordLength_pos {length offset nextOffset recordLen : Nat}
    (h : recordLength length offset nextOffset = some recordLen) (hnext : nextOffset ≠ 0) :
    12 ≤ nextOffset ∧ nextOffset % 4 = 0 ∧ offset + nextOffset ≤ length ∧ recordLen = nextOffset := by
  unfold recordLength at h
  rw [if_neg hnext] at h
  split at h
  · cases h
  next =>
    cases h
    omega

/-- The loop over the records. The offsets stay within the length of a buffer, so that no addition
of the source overflows. -/
def parseRecords (buffer : List UInt8) (length : Nat) (kinds : ChangeKinds) (offset : Nat) :
    ChangeKinds :=
  if offset < length then
    match readHeader buffer offset with
    | none => kinds.bitor RESCAN
    | some record =>
      match _h : recordLength length offset record.nextOffset with
      | none => kinds.bitor RESCAN
      | some recordLen =>
        if record.fileNameBytes % 2 ≠ 0 ∨ recordLen < 12 + record.fileNameBytes then
          kinds.bitor RESCAN
        else
          let kinds := kinds.bitor (kindOfAction record.action)
          if _hnext : record.nextOffset = 0 then orRescan kinds
          else parseRecords buffer length kinds (offset + record.nextOffset)
  else orRescan kinds
termination_by length - offset
decreasing_by
  have hpos := recordLength_pos _h _hnext
  omega

def parseChangeKinds (buffer : List UInt8) (transferred : Nat) : ChangeKinds :=
  if transferred = 0 ∨ buffer.length < transferred then RESCAN
  else parseRecords buffer transferred .default 0

/-- Records lead from the first offset to the last: each next offset is aligned, is at least the
fixed part, stays inside and leaves room for the name. -/
inductive Linked (bytes : List UInt8) : Nat → List Nat → Nat → Prop
  | nil (offset : Nat) : Linked bytes offset [] offset
  | cons {offset stop : Nat} {record : ChangeRecord} {actions : List Nat}
      (header : readHeader bytes offset = some record) (least : 12 ≤ record.nextOffset)
      (aligned : record.nextOffset % 4 = 0) (inside : offset + record.nextOffset ≤ bytes.length)
      (even : record.fileNameBytes % 2 = 0)
      (room : 12 + record.fileNameBytes ≤ record.nextOffset)
      (rest : Linked bytes (offset + record.nextOffset) actions stop) :
      Linked bytes offset (record.action :: actions) stop

structure Last (bytes : List UInt8) (offset : Nat) (record : ChangeRecord) : Prop where
  header : readHeader bytes offset = some record
  next : record.nextOffset = 0
  even : record.fileNameBytes % 2 = 0
  room : offset + 12 + record.fileNameBytes ≤ bytes.length

/-- The bytes begin with a chain of records of these actions; its last record, and only it, has no
next one. -/
def WellFormed (bytes : List UInt8) (actions : List Nat) : Prop :=
  ∃ front stop record, actions = front ++ [record.action] ∧ Linked bytes 0 front stop ∧
    Last bytes stop record

/-- The records lead to the very end of the bytes, and the last of them has a next offset still. -/
def Unterminated (bytes : List UInt8) (actions : List Nat) : Prop :=
  actions ≠ [] ∧ Linked bytes 0 actions bytes.length

def kindsOf (actions : List Nat) : ChangeKinds :=
  actions.foldl (fun kinds action => kinds.bitor (kindOfAction action)) .default

/-- What a parser of the records owes: the categories of the actions of a well-formed chain, a rescan
in every other case, and never nothing. -/
def ParsedExactly (buffer : List UInt8) (transferred : Nat) : Prop :=
  let kinds := parseChangeKinds buffer transferred
  (∀ actions, transferred ≤ buffer.length → WellFormed (buffer.take transferred) actions →
    kinds = kindsOf actions) ∧
  ((¬ ∃ actions, transferred ≤ buffer.length ∧ WellFormed (buffer.take transferred) actions) →
    kinds.contains RESCAN) ∧
  ¬ kinds.isEmpty

section Reading

variable {buffer : List UInt8} {length offset : Nat}

theorem readU32_bound {value : Nat} (h : readU32 buffer offset = some value) :
    offset + 4 ≤ buffer.length := by
  unfold readU32 at h
  obtain ⟨_, _, h⟩ := Option.bind_eq_some_iff.mp h
  obtain ⟨_, _, h⟩ := Option.bind_eq_some_iff.mp h
  obtain ⟨_, _, h⟩ := Option.bind_eq_some_iff.mp h
  obtain ⟨_, h3, _⟩ := Option.bind_eq_some_iff.mp h
  obtain ⟨_, _⟩ := List.getElem?_eq_some_iff.mp h3
  omega

theorem readU32_take (h : offset + 4 ≤ length) :
    readU32 (buffer.take length) offset = readU32 buffer offset := by
  unfold readU32
  have hread : ∀ i, i < length → (buffer.take length)[i]? = buffer[i]? := fun i hi => by
    rw [List.getElem?_take, if_pos hi]
  rw [hread offset (by omega), hread (offset + 1) (by omega), hread (offset + 2) (by omega),
    hread (offset + 3) (by omega)]

theorem readHeader_bound {record : ChangeRecord} (h : readHeader buffer offset = some record) :
    offset + 12 ≤ buffer.length := by
  unfold readHeader at h
  obtain ⟨_, _, h⟩ := Option.bind_eq_some_iff.mp h
  obtain ⟨_, _, h⟩ := Option.bind_eq_some_iff.mp h
  obtain ⟨_, hname, _⟩ := Option.bind_eq_some_iff.mp h
  have hbound := readU32_bound hname
  omega

theorem readHeader_take (h : offset + 12 ≤ length) :
    readHeader (buffer.take length) offset = readHeader buffer offset := by
  unfold readHeader
  rw [readU32_take (by omega), readU32_take (by omega), readU32_take (by omega)]

end Reading

variable {bytes : List UInt8} {actions : List Nat}

theorem Last.not_linked {offset stop : Nat} {front : List Nat} {record : ChangeRecord}
    (hlast : Last bytes stop record) (hfront : Linked bytes offset front stop) :
    ¬ Linked bytes offset actions bytes.length := by
  have hbound := readHeader_bound hlast.header
  intro hlinked
  induction hfront generalizing actions with
  | nil =>
    cases hlinked with
    | nil => omega
    | cons header =>
      have hsame := Option.some.inj (hlast.header.symm.trans header)
      have hnext := hlast.next
      rw [hsame] at hnext
      omega
  | cons header _ _ _ _ _ _ ih =>
    cases hlinked with
    | nil =>
      have hinside := readHeader_bound header
      omega
    | cons header' _ _ _ _ _ rest' =>
      cases Option.some.inj (header.symm.trans header')
      exact ih hlast hbound rest'

theorem orRescan_not_isEmpty (kinds : ChangeKinds) : ¬ (orRescan kinds).isEmpty := by
  unfold orRescan
  split
  · decide
  next h => exact h

theorem bitor_rescan_not_isEmpty (kinds : ChangeKinds) : ¬ (kinds.bitor RESCAN).isEmpty :=
  not_isEmpty_of_contains (contains_bitor_right kinds RESCAN) (by decide)

theorem parseRecords_not_isEmpty (buffer : List UInt8) (length : Nat) (kinds : ChangeKinds)
    (offset : Nat) : ¬ (parseRecords buffer length kinds offset).isEmpty := by
  fun_induction parseRecords buffer length kinds offset with
  | case1 kinds offset | case2 kinds offset | case3 kinds offset =>
    exact bitor_rescan_not_isEmpty kinds
  | case4 => exact orRescan_not_isEmpty _
  | case5 _ _ _ _ _ _ _ _ _ _ ih => exact ih
  | case6 kinds => exact orRescan_not_isEmpty kinds

theorem parseChangeKinds_not_isEmpty (buffer : List UInt8) (transferred : Nat) :
    ¬ (parseChangeKinds buffer transferred).isEmpty := by
  unfold parseChangeKinds
  split
  · decide
  · exact parseRecords_not_isEmpty buffer transferred .default 0

section Parsing

variable {buffer : List UInt8} {length : Nat}

theorem parseRecords_end (kinds : ChangeKinds) :
    parseRecords buffer length kinds length = orRescan kinds := by
  rw [parseRecords, if_neg (Nat.lt_irrefl _)]

variable {record : ChangeRecord}

theorem parseRecords_cons {offset : Nat} (kinds : ChangeKinds)
    (header : readHeader buffer offset = some record) (least : 12 ≤ record.nextOffset)
    (aligned : record.nextOffset % 4 = 0) (inside : offset + record.nextOffset ≤ length)
    (even : record.fileNameBytes % 2 = 0) (room : 12 + record.fileNameBytes ≤ record.nextOffset) :
    parseRecords buffer length kinds offset =
      parseRecords buffer length (kinds.bitor (kindOfAction record.action))
        (offset + record.nextOffset) := by
  have hlength : recordLength length offset record.nextOffset = some record.nextOffset := by
    unfold recordLength
    rw [if_neg (by omega), if_neg (by omega)]
  rw [parseRecords, if_pos (by omega), header]
  dsimp only
  split
  next hnone =>
    rw [hlength] at hnone
    cases hnone
  next hsome =>
    cases Option.some.inj (hlength.symm.trans hsome)
    rw [if_neg (by omega), dif_neg (by omega)]

theorem parseRecords_last {offset : Nat} (kinds : ChangeKinds)
    (header : readHeader buffer offset = some record) (next : record.nextOffset = 0)
    (even : record.fileNameBytes % 2 = 0) (room : offset + 12 + record.fileNameBytes ≤ length) :
    parseRecords buffer length kinds offset =
      orRescan (kinds.bitor (kindOfAction record.action)) := by
  have hlength : recordLength length offset record.nextOffset = some (length - offset) := by
    unfold recordLength
    rw [if_pos next]
  rw [parseRecords, if_pos (by omega), header]
  dsimp only
  split
  next hnone =>
    rw [hlength] at hnone
    cases hnone
  next hsome =>
    cases Option.some.inj (hlength.symm.trans hsome)
    rw [if_neg (by omega), dif_pos next]

theorem foldl_kinds (kinds : ChangeKinds) (actions : List Nat) :
    actions.foldl (fun kinds action => kinds.bitor (kindOfAction action)) kinds =
      kinds.bitor (kindsOf actions) := by
  induction actions generalizing kinds with
  | nil => simp [kindsOf]
  | cons _ _ ih =>
    unfold kindsOf
    rw [List.foldl_cons, List.foldl_cons, ih, default_bitor, ih, bitor_assoc]

theorem kindsOf_cons (action : Nat) (actions : List Nat) :
    kindsOf (action :: actions) = (kindOfAction action).bitor (kindsOf actions) := by
  unfold kindsOf
  rw [List.foldl_cons, foldl_kinds, default_bitor]
  rfl

theorem kindsOf_concat (front : List Nat) (action : Nat) :
    kindsOf (front ++ [action]) = (kindsOf front).bitor (kindOfAction action) := by
  unfold kindsOf
  rw [List.foldl_append, List.foldl_cons, List.foldl_nil]

theorem parseRecords_linked {offset stop : Nat} {actions : List Nat} (kinds : ChangeKinds)
    (hlength : length ≤ buffer.length) (h : Linked (buffer.take length) offset actions stop) :
    parseRecords buffer length kinds offset =
      parseRecords buffer length (kinds.bitor (kindsOf actions)) stop := by
  induction h generalizing kinds with
  | nil => simp [kindsOf]
  | cons header least aligned inside even room _ ih =>
    have hbound := readHeader_bound header
    rw [List.length_take_of_le hlength] at inside hbound
    rw [readHeader_take hbound] at header
    rw [parseRecords_cons kinds header least aligned inside even room, ih, kindsOf_cons,
      bitor_assoc]

/-- From each offset the bytes go on as a chain, or link to their end, or the loop asks for a
rescan. -/
theorem parseRecords_cases (hlength : length ≤ buffer.length) (kinds : ChangeKinds) (offset : Nat)
    (hoffset : offset ≤ length) :
    (∃ front stop record, Linked (buffer.take length) offset front stop ∧
      Last (buffer.take length) stop record) ∨
    (∃ actions, Linked (buffer.take length) offset actions length) ∨
    (parseRecords buffer length kinds offset).contains RESCAN := by
  have htake := List.length_take_of_le hlength
  induction hrest : length - offset using Nat.strongRecOn generalizing kinds offset with
  | ind rest ih =>
    rcases Nat.eq_or_lt_of_le hoffset with heq | hlt
    · exact Or.inr (Or.inl ⟨[], heq ▸ Linked.nil offset⟩)
    · have hrescan := contains_bitor_right kinds RESCAN
      rw [parseRecords, if_pos hlt]
      split
      · exact Or.inr (Or.inr hrescan)
      next record header =>
        dsimp only
        split
        · exact Or.inr (Or.inr hrescan)
        next recordLen hrecord =>
          split
          · exact Or.inr (Or.inr hrescan)
          next =>
            by_cases hnext : record.nextOffset = 0
            · -- the record claims the rest of the transferred bytes
              have hall : recordLen = length - offset := by
                unfold recordLength at hrecord
                rw [if_pos hnext] at hrecord
                exact (Option.some.inj hrecord).symm
              have hinside : readHeader (buffer.take length) offset = some record :=
                (readHeader_take (by omega)).trans header
              refine Or.inl ⟨[], offset, record, Linked.nil offset, hinside, hnext, ?_, ?_⟩
              · omega
              · omega
            · obtain ⟨least, aligned, inside, _⟩ := recordLength_pos hrecord hnext
              have hinside : readHeader (buffer.take length) offset = some record :=
                (readHeader_take (by omega)).trans header
              have hlink : ∀ {actions stop},
                  Linked (buffer.take length) (offset + record.nextOffset) actions stop →
                    Linked (buffer.take length) offset (record.action :: actions) stop :=
                fun hrest => Linked.cons hinside least aligned (by omega) (by omega) (by omega) hrest
              rw [dif_neg hnext]
              rcases ih (length - (offset + record.nextOffset)) (by omega)
                (kinds.bitor (kindOfAction record.action)) (offset + record.nextOffset) inside rfl
                with ⟨front, stop, last, hfront, hlast⟩ | ⟨actions, hactions⟩ | hmore
              · exact Or.inl ⟨record.action :: front, stop, last, hlink hfront, hlast⟩
              · exact Or.inr (Or.inl ⟨record.action :: actions, hlink hactions⟩)
              · exact Or.inr (Or.inr hmore)

theorem kindOfAction_cases (action : Nat) :
    kindOfAction action = CREATED ∨ kindOfAction action = DELETED ∨
      kindOfAction action = WRITTEN ∨ kindOfAction action = RENAMED ∨
        kindOfAction action = RESCAN := by
  unfold kindOfAction
  split <;> simp

theorem kindOfAction_not_isEmpty (action : Nat) : ¬ (kindOfAction action).isEmpty := by
  rcases kindOfAction_cases action with h | h | h | h | h <;> rw [h] <;> decide

theorem orRescan_kindsOf {actions : List Nat} (h : actions ≠ []) :
    orRescan (kindsOf actions) = kindsOf actions := by
  obtain ⟨action, _, rfl⟩ := List.exists_cons_of_ne_nil h
  rw [kindsOf_cons]
  refine if_neg (not_isEmpty_of_contains ?_ (kindOfAction_not_isEmpty action))
  refine contains_bitor_left ?_ _
  unfold contains
  simp

theorem contains_rescan_kindsOf {actions : List Nat} :
    (kindsOf actions).contains RESCAN ↔ ∃ action ∈ actions, kindOfAction action = RESCAN := by
  induction actions with
  | nil =>
    constructor
    · intro h
      exact absurd h (by decide)
    · rintro ⟨action, hmem, _⟩
      cases hmem
  | cons action _ ih =>
    have haction : (kindOfAction action).contains RESCAN ↔ kindOfAction action = RESCAN := by
      rcases kindOfAction_cases action with h | h | h | h | h <;> rw [h] <;> decide
    rw [kindsOf_cons, contains_rescan_bitor, haction, ih]
    simp

end Parsing

variable {transferred : Nat}

theorem WellFormed.parse {buffer : List UInt8} (hlength : transferred ≤ buffer.length)
    (h : WellFormed (buffer.take transferred) actions) :
    parseChangeKinds buffer transferred = kindsOf actions := by
  obtain ⟨_, _, _, rfl, hfront, hlast⟩ := h
  have hbound := readHeader_bound hlast.header
  have hroom := hlast.room
  rw [List.length_take_of_le hlength] at hbound hroom
  have hheader := hlast.header
  rw [readHeader_take hbound] at hheader
  unfold parseChangeKinds
  rw [if_neg (by omega), parseRecords_linked default hlength hfront, default_bitor,
    parseRecords_last _ hheader hlast.next hlast.even hroom, ← kindsOf_concat]
  exact orRescan_kindsOf (List.concat_ne_nil _ _)

theorem Unterminated.parse {buffer : List UInt8} (hlength : transferred ≤ buffer.length)
    (h : Unterminated (buffer.take transferred) actions) :
    parseChangeKinds buffer transferred = kindsOf actions := by
  obtain ⟨hne, hlinked⟩ := h
  rw [List.length_take_of_le hlength] at hlinked
  have hpos : transferred ≠ 0 := by
    rintro rfl
    cases hlinked with
    | nil => exact hne rfl
    | cons header =>
      have hbound := readHeader_bound header
      simp at hbound
  unfold parseChangeKinds
  rw [if_neg (by omega), parseRecords_linked default hlength hlinked, default_bitor,
    parseRecords_end, orRescan_kindsOf hne]

theorem Unterminated.not_wellFormed (h : Unterminated bytes actions) (others : List Nat) :
    ¬ WellFormed bytes others := by
  rintro ⟨front, stop, record, _, hfront, hlast⟩
  exact hlast.not_linked hfront h.2

/-- The parser does what it owes except where records of known actions link to the very end of the
transferred bytes: there it takes the missing record for the end of the chain. -/
theorem parsedExactly_iff (buffer : List UInt8) (transferred : Nat) :
    ParsedExactly buffer transferred ↔
      ¬ ∃ actions, transferred ≤ buffer.length ∧
        Unterminated (buffer.take transferred) actions ∧
        ∀ action ∈ actions, kindOfAction action ≠ RESCAN := by
  constructor
  · rintro ⟨_, hrescan, _⟩ ⟨actions, hlength, hunterminated, hknown⟩
    have hcontains := hrescan fun ⟨others, _, hwell⟩ => hunterminated.not_wellFormed others hwell
    rw [hunterminated.parse hlength, contains_rescan_kindsOf] at hcontains
    obtain ⟨action, hmem, haction⟩ := hcontains
    exact hknown action hmem haction
  · intro hnot
    -- in every case the result is that of a chain, or asks for a rescan
    have hcases : (∃ actions, transferred ≤ buffer.length ∧
        WellFormed (buffer.take transferred) actions) ∨
          (parseChangeKinds buffer transferred).contains RESCAN := by
      by_cases hbounds : transferred = 0 ∨ buffer.length < transferred
      · refine Or.inr ?_
        unfold parseChangeKinds
        rw [if_pos hbounds]
        decide
      · have hlength : transferred ≤ buffer.length := by omega
        rcases parseRecords_cases hlength default 0 (Nat.zero_le _) with
          ⟨front, stop, record, hfront, hlast⟩ | ⟨actions, hactions⟩ | hrescan
        · exact Or.inl ⟨_, hlength, front, stop, record, rfl, hfront, hlast⟩
        · have hne : actions ≠ [] := by
            rintro rfl
            cases hactions
            omega
          have hunterminated : Unterminated (buffer.take transferred) actions := by
            refine ⟨hne, ?_⟩
            rw [List.length_take_of_le hlength]
            exact hactions
          refine Or.inr ?_
          rw [hunterminated.parse hlength, contains_rescan_kindsOf]
          by_contra hnone
          refine hnot ⟨actions, hlength, hunterminated, fun action hmem haction => ?_⟩
          exact hnone ⟨action, hmem, haction⟩
        · refine Or.inr ?_
          unfold parseChangeKinds
          rw [if_neg hbounds]
          exact hrescan
    refine ⟨fun actions hlength hwell => hwell.parse hlength, fun hnone => ?_, ?_⟩
    · exact hcases.resolve_left hnone
    · exact parseChangeKinds_not_isEmpty buffer transferred

/-- One record of an added file, whose next offset leads to the end of what was transferred. -/
def linkedToTheEnd : List UInt8 := [12, 0, 0, 0, 1, 0, 0, 0, 0, 0, 0, 0]

/-- The chain is cut off, and no rescan is asked for. -/
theorem not_parsedExactly_linkedToTheEnd : ¬ ParsedExactly linkedToTheEnd 12 := by
  have hheader : readHeader linkedToTheEnd 0 = some ⟨12, 1, 0⟩ := rfl
  have hlinked : Linked linkedToTheEnd 0 [1] 12 :=
    Linked.cons hheader (by decide) rfl (by decide) rfl (by decide) (Linked.nil 12)
  have hunterminated : Unterminated (linkedToTheEnd.take 12) [1] := ⟨List.cons_ne_nil _ _, hlinked⟩
  rintro ⟨_, hrescan, _⟩
  have hcontains := hrescan fun ⟨others, _, hwell⟩ => hunterminated.not_wellFormed others hwell
  have hkinds : parseChangeKinds linkedToTheEnd 12 = CREATED :=
    hunterminated.parse (by decide)
  rw [hkinds] at hcontains
  exact absurd hcontains (by decide)

end Nexus.AddonWatch
