import Nexus.NativeMemory

namespace Nexus.NativeMemory

open Fallible

namespace ProcessMemory

variable (memory : ProcessMemory)

def bytesAt (address length : Nat) : List Byte :=
  (List.range length).map fun offset => memory.byte (address + offset)

theorem bytesAt_append (address first second : Nat) :
    memory.bytesAt address first ++ memory.bytesAt (address + first) second =
      memory.bytesAt address (first + second) := by
  simp [bytesAt, List.range_add, Nat.add_assoc, Function.comp_def]

theorem take_bytesAt {address length n : Nat} (h : n ≤ length) :
    (memory.bytesAt address length).take n = memory.bytesAt address n := by
  simp [bytesAt, ← List.map_take, List.take_range, Nat.min_eq_left h]

end ProcessMemory

/-- The region is committed, readable and unguarded, and has the address. -/
structure RegionInformation.ReadableAt (region : RegionInformation) (address : Nat) : Prop where
  committed : region.state = MEM_COMMIT
  unguarded : region.protect &&& PAGE_GUARD = 0
  readable : readableProtection (region.protect &&& 0xff) = true
  representable : region.baseAddress + region.regionSize < 2 ^ 64
  base_le : region.baseAddress ≤ address
  lt_end : address < region.baseAddress + region.regionSize

namespace ProcessMemory

variable (memory : ProcessMemory)

def Readable (address : Nat) : Prop :=
  ∃ region, memory.query address = some region ∧ region.ReadableAt address

def ReadsExactly (address length : Nat) : Prop :=
  memory.read address length = ⟨true, length, fun offset => memory.byte (address + offset)⟩

/-- The request lies in the bytes asked for and in one region found readable. -/
structure Within (address length : Nat) (request : ReadRequest) : Prop where
  address_le : address ≤ request.address
  end_le : request.address + request.length ≤ address + length
  found : ∃ region, memory.query request.address = some region ∧
    region.ReadableAt request.address ∧
    request.address + request.length ≤ region.baseAddress + region.regionSize

/-- The answers of the system are those of one memory, and memory is left. -/
structure Reliable : Prop where
  /-- A region has its protection up to its end. -/
  consistent : ∀ address region, memory.query address = some region → region.ReadableAt address →
    ∀ later, address ≤ later → later < region.baseAddress + region.regionSize →
      memory.Readable later
  /-- What lies in a readable region can be read. -/
  reads : ∀ address region length, memory.query address = some region →
    region.ReadableAt address → address + length ≤ region.baseAddress + region.regionSize →
      memory.ReadsExactly address length
  allocates : ∀ length additional, length + additional ≤ ISIZE_MAX →
    memory.allocates length additional = true

variable {memory} {address : Nat}

theorem regionEnd_read_eq_ok {regionEnd : Nat} :
    memory.regionEnd address .read = .ok regionEnd ↔
      ∃ region, memory.query address = some region ∧ region.ReadableAt address ∧
        regionEnd = region.baseAddress + region.regionSize := by
  unfold ProcessMemory.regionEnd
  cases hquery : memory.query address with
  | none => simp
  | some info =>
    dsimp only
    constructor
    · intro h
      refine ⟨info, rfl, ?_⟩
      grind [RegionInformation.ReadableAt]
    · rintro ⟨region, hregion, hreadable, rfl⟩
      cases hregion
      have hbounds := hreadable.representable
      have hle := hreadable.base_le
      have hlt := hreadable.lt_end
      have hprotection := hreadable.readable
      have hne : info.protect &&& 0xff ≠ PAGE_NOACCESS := fun heq => by
        rw [heq] at hprotection
        exact absurd hprotection (by decide)
      rw [if_neg (not_not.mpr hreadable.committed), if_neg (not_not.mpr hreadable.unguarded),
        if_neg hne, if_neg fun h => by rw [hprotection] at h; exact Bool.noConfusion h.2,
        if_neg (by simp), if_neg (by omega), if_neg (by omega)]

variable {maximum : Nat}

theorem regionEnd_ne_missingNul {access : MemoryAccess} :
    memory.regionEnd address access ≠ .error (.missingNul maximum) := by
  unfold regionEnd
  grind

variable {copied length : Nat}

theorem nextStep_cases (most : Nat) (hcopied : copied < length)
    (hlength : address + length < 2 ^ 64) (hmost : 0 < most) (reads : List ReadRequest) :
    (∃ step region, memory.nextStep address copied length most .read reads =
        (.ok (address + copied, step), reads) ∧ 0 < step ∧ copied + step ≤ length ∧ step ≤ most ∧
      memory.query (address + copied) = some region ∧ region.ReadableAt (address + copied) ∧
      address + copied + step ≤ region.baseAddress + region.regionSize) ∨
    (∃ e, memory.nextStep address copied length most .read reads = (.error (.failed e), reads) ∧
      (∀ maximum, e ≠ .missingNul maximum) ∧ ¬ memory.Readable (address + copied)) := by
  have hcursor : checkedAdd address copied .addressOverflow = pure (address + copied) :=
    if_pos (by omega)
  unfold nextStep
  rw [hcursor]
  simp only [pure_bind']
  cases hend : memory.regionEnd (address + copied) .read with
  | error e =>
    refine Or.inr ⟨e, rfl, fun maximum heq => regionEnd_ne_missingNul (heq ▸ hend), ?_⟩
    rintro ⟨region, hquery, hreadable⟩
    have hok := regionEnd_read_eq_ok.mpr ⟨region, hquery, hreadable, rfl⟩
    rw [hend] at hok
    cases hok
  | ok =>
    obtain ⟨region, hquery, hreadable, rfl⟩ := regionEnd_read_eq_ok.mp hend
    have hlt := hreadable.lt_end
    have havailable : checkedSub (region.baseAddress + region.regionSize) (address + copied)
        .malformedMemoryRegion =
          pure (region.baseAddress + region.regionSize - (address + copied)) :=
      if_pos (by omega)
    have hremaining : uncheckedSub length copied = pure (length - copied) := if_pos (by omega)
    rw [ofExcept_ok, pure_bind', havailable, pure_bind', hremaining, pure_bind',
      ensure_true (by omega), pure_bind']
    exact Or.inl ⟨_, region, rfl, by omega, by omega, by omega, hquery, hreadable, by omega⟩

theorem reserve_cases (length additional requested : Nat) (reads : List ReadRequest) :
    (memory.reserve length additional requested reads = (.ok (), reads) ∧
      length + additional ≤ ISIZE_MAX) ∨
    (memory.reserve length additional requested reads =
        (.error (.failed (.allocationFailed requested)), reads) ∧
      (memory.Reliable → ISIZE_MAX < length + additional)) := by
  unfold reserve
  rw [ensure_apply]
  split
  next h => exact Or.inl ⟨rfl, h.1⟩
  next h =>
    refine Or.inr ⟨rfl, fun hreliable => ?_⟩
    by_contra hle
    exact h ⟨Nat.not_lt.mp hle, hreliable.allocates length additional (Nat.not_lt.mp hle)⟩

theorem allocateZeroed_cases (length : Nat) (reads : List ReadRequest) :
    (memory.allocateZeroed length reads = (.ok (List.replicate length 0), reads) ∧
      length ≤ ISIZE_MAX) ∨
    (memory.allocateZeroed length reads =
        (.error (.failed (.allocationFailed length)), reads) ∧
      (memory.Reliable → ISIZE_MAX < length)) := by
  rcases memory.reserve_cases 0 length length reads with ⟨hreserve, _⟩ | ⟨hreserve, hlt⟩
  · exact Or.inl ⟨bind_of_ok hreserve _, by omega⟩
  · exact Or.inr ⟨bind_of_error hreserve _, fun hreliable => by have := hlt hreliable; omega⟩

theorem appendBytes_cases (memory : ProcessMemory) (output bytes : List Byte)
    (hlength : output.length + bytes.length < 2 ^ 64) (reads : List ReadRequest) :
    (memory.appendBytes output bytes reads = (.ok (output ++ bytes), reads) ∧
      output.length + bytes.length ≤ ISIZE_MAX) ∨
    (∃ requested, memory.appendBytes output bytes reads =
        (.error (.failed (.allocationFailed requested)), reads) ∧
      (memory.Reliable → ISIZE_MAX < output.length + bytes.length)) := by
  have hrequested : checkedAdd output.length bytes.length .addressOverflow =
      pure (output.length + bytes.length) := if_pos hlength
  unfold appendBytes
  rw [hrequested, pure_bind']
  rcases memory.reserve_cases output.length bytes.length (output.length + bytes.length) reads with
    ⟨hreserve, hle⟩ | ⟨hreserve, hlt⟩
  · exact Or.inl ⟨bind_of_ok hreserve _, hle⟩
  · exact Or.inr ⟨_, bind_of_error hreserve _, hlt⟩

theorem classifyReadResult_cases (success : Bool) (expected actual : Nat)
    (reads : List ReadRequest) :
    (classifyReadResult success expected actual reads = (.ok (), reads)) ∨
    (∃ e, classifyReadResult success expected actual reads = (.error (.failed e), reads) ∧
      (∀ maximum, e ≠ .missingNul maximum) ∧ ¬ (success = true ∧ actual = expected)) := by
  unfold classifyReadResult
  split
  next hne =>
    split
    · exact Or.inr ⟨_, rfl, by simp, fun h => hne h.2⟩
    · exact Or.inr ⟨_, rfl, by simp, fun h => hne h.2⟩
  next =>
    cases success with
    | true => exact Or.inl rfl
    | false => exact Or.inr ⟨_, rfl, by simp, by simp⟩

variable {destination : List Byte}

theorem readChunk_cases (address : Nat) (hne : destination ≠ []) (reads : List ReadRequest) :
    (∃ chunk, memory.readChunk address destination reads =
        (.ok chunk, ⟨address, destination.length⟩ :: reads) ∧ chunk.length = destination.length ∧
      (memory.ReadsExactly address destination.length →
        chunk = memory.bytesAt address destination.length)) ∨
    (∃ e, memory.readChunk address destination reads =
        (.error (.failed e), ⟨address, destination.length⟩ :: reads) ∧
      (∀ maximum, e ≠ .missingNul maximum) ∧
      ¬ memory.ReadsExactly address destination.length) := by
  have hfilled : destination.isEmpty = false := by simp [hne]
  generalize hanswer : memory.read address destination.length = answer
  have hrun : memory.readChunk address destination reads =
      (classifyReadResult answer.success destination.length answer.actual >>= fun _ =>
        pure ((List.range destination.length).map answer.destination))
        (⟨address, destination.length⟩ :: reads) := by
    unfold readChunk
    rw [hfilled, hanswer]
    rfl
  rw [hrun]
  rcases classifyReadResult_cases answer.success destination.length answer.actual
    (⟨address, destination.length⟩ :: reads) with hclassify | ⟨e, hclassify, hnul, hno⟩
  · refine Or.inl ⟨_, bind_of_ok hclassify _, by simp, fun hexact => ?_⟩
    rw [ReadsExactly, hanswer] at hexact
    rw [hexact]
    rfl
  · refine Or.inr ⟨e, bind_of_error hclassify _, hnul, fun hexact => hno ?_⟩
    rw [ReadsExactly, hanswer] at hexact
    rw [hexact]
    exact ⟨rfl, rfl⟩

def Contained (memory : ProcessMemory) (address length : Nat) (reads : List ReadRequest) : Prop :=
  ∀ request ∈ reads, memory.Within address length request

theorem Contained.cons {address length : Nat} {request : ReadRequest} {reads : List ReadRequest}
    (hrequest : memory.Within address length request) (h : memory.Contained address length reads) :
    memory.Contained address length (request :: reads) := by
  intro other hmem
  rcases List.mem_cons.mp hmem with rfl | hmem
  · exact hrequest
  · exact h other hmem

/-- How a copy of at most `length` bytes may end. -/
structure Copied (memory : ProcessMemory) (address length : Nat)
    (Answer : Except Stop (List Byte) → Prop)
    (outcome : Except Stop (List Byte) × List ReadRequest) : Prop where
  contained : memory.Contained address length outcome.2
  orderly : ∀ stop, outcome.1 = .error stop → ∃ e, stop = .failed e
  answer : memory.Reliable → Answer outcome.1

def Passable (memory : ProcessMemory) (address : Nat) : Prop :=
  memory.Readable address ∧ memory.byte address ≠ 0

inductive CStringAnswer (memory : ProcessMemory) (address maximum : Nat) :
    Except Stop (List Byte) → Prop where
  | found (nul : Nat) (lt : nul < maximum) (fits : nul + 1 ≤ ISIZE_MAX)
    (passed : ∀ i < nul, memory.Passable (address + i)) (readable : memory.Readable (address + nul))
    (byte : memory.byte (address + nul) = 0) :
    CStringAnswer memory address maximum (.ok (memory.bytesAt address (nul + 1)))
  | missing (fits : maximum ≤ ISIZE_MAX) (passed : ∀ i < maximum, memory.Passable (address + i)) :
    CStringAnswer memory address maximum (.error (.failed (.missingNul maximum)))
  | unreadable (i : Nat) (lt : i < maximum) (passed : ∀ j < i, memory.Passable (address + j))
    (not_readable : ¬ memory.Readable (address + i)) (e : NativeMemoryError)
    (ne : ∀ limit, e ≠ .missingNul limit) :
    CStringAnswer memory address maximum (.error (.failed e))
  | tooLong (lt : ISIZE_MAX < maximum) (passed : ∀ i < ISIZE_MAX, memory.Passable (address + i))
    (requested : Nat) :
    CStringAnswer memory address maximum (.error (.failed (.allocationFailed requested)))

@[simp] theorem getElem_bytesAt {i : Nat} (h : i < (memory.bytesAt address length).length) :
    (memory.bytesAt address length)[i] = memory.byte (address + i) := by
  simp [bytesAt]

theorem Reliable.readable_of_lt (h : memory.Reliable) {i : Nat} {region : RegionInformation}
    (hquery : memory.query address = some region) (hreadable : region.ReadableAt address)
    (hend : address + length ≤ region.baseAddress + region.regionSize) (hi : i < length) :
    memory.Readable (address + i) :=
  h.consistent address region hquery hreadable _ (Nat.le_add_right _ _) (by omega)

variable {reads : List ReadRequest}

theorem copyTurn_cases (hmaximum : address + maximum < 2 ^ 64) (hlt : copied < maximum)
    (hreads : memory.Contained address maximum reads) :
    (∃ chunk after, memory.copyTurn address maximum copied reads = (.ok chunk, after) ∧
      memory.Contained address maximum after ∧ copied < copied + chunk.length ∧
      copied + chunk.length ≤ maximum ∧
      (memory.Reliable → chunk = memory.bytesAt (address + copied) chunk.length ∧
        ∀ i < chunk.length, memory.Readable (address + copied + i))) ∨
    (∃ e after, memory.copyTurn address maximum copied reads = (.error (.failed e), after) ∧
      memory.Contained address maximum after ∧ (∀ limit, e ≠ .missingNul limit) ∧
      (memory.Reliable → ¬ memory.Readable (address + copied))) := by
  unfold copyTurn
  rcases nextStep_cases STRING_COPY_CHUNK_BYTES hlt hmaximum (by decide) reads with
    ⟨step, region, hstep, hpos, hle, hmost, hquery, hreadable, hend⟩ | ⟨e, hstep, hnul, hnot⟩
  · have hwithin : memory.Within address maximum ⟨address + copied, step⟩ := by
      refine ⟨Nat.le_add_right _ _, ?_, region, hquery, hreadable, hend⟩
      dsimp only
      omega
    rw [bind_of_ok hstep]
    dsimp only
    rcases memory.allocateZeroed_cases step reads with ⟨hallocate, _⟩ | ⟨hallocate, hlong⟩
    · have hne : List.replicate step (0 : Byte) ≠ [] := by
        rw [ne_eq, List.replicate_eq_nil_iff]
        omega
      rw [bind_of_ok hallocate]
      rcases memory.readChunk_cases (address + copied) hne reads with
        ⟨chunk, hchunk, hlength, hexact⟩ | ⟨e, hchunk, hnul, hno⟩
      · rw [List.length_replicate] at hchunk hlength hexact
        subst hlength
        refine Or.inl ⟨chunk, _, hchunk, hreads.cons hwithin, by omega, hle, fun hreliable => ?_⟩
        exact ⟨hexact (hreliable.reads _ region _ hquery hreadable hend), fun i hi =>
          hreliable.readable_of_lt hquery hreadable hend hi⟩
      · rw [List.length_replicate] at hchunk hno
        refine Or.inr ⟨e, _, hchunk, hreads.cons hwithin, hnul, fun hreliable => ?_⟩
        exact absurd (hreliable.reads _ region _ hquery hreadable hend) hno
    · refine Or.inr ⟨_, _, bind_of_error hallocate _, hreads, by simp, fun hreliable => ?_⟩
      have hsmall : STRING_COPY_CHUNK_BYTES ≤ ISIZE_MAX := by decide
      have hbig := hlong hreliable
      omega
  · exact Or.inr ⟨e, _, bind_of_error hstep _, hreads, hnul, fun _ => hnot⟩

theorem passable_add (hbefore : ∀ i < copied, memory.Passable (address + i))
    (hmore : ∀ i < length, memory.Passable (address + copied + i)) :
    ∀ i < copied + length, memory.Passable (address + i) := by
  intro i hi
  by_cases hlt : i < copied
  · exact hbefore i hlt
  · have hmoved := hmore (i - copied) (by omega)
    rwa [show address + copied + (i - copied) = address + i by omega] at hmoved

theorem appendBytes_nul {nul : Nat} {output chunk : List Byte}
    (hmaximum : address + maximum < 2 ^ 64) (hle : copied + chunk.length ≤ maximum)
    (hlength : output.length = copied) (hreads : memory.Contained address maximum reads)
    (hfind : chunk.findIdx? (· = 0) = some nul)
    (houtput : memory.Reliable → output = memory.bytesAt address copied ∧
      ∀ i < copied, memory.Passable (address + i))
    (hchunk : memory.Reliable → chunk = memory.bytesAt (address + copied) chunk.length ∧
      ∀ i < chunk.length, memory.Readable (address + copied + i)) :
    memory.Copied address maximum (memory.CStringAnswer address maximum)
      (memory.appendBytes output (chunk.take (nul + 1)) reads) := by
  obtain ⟨hinside, hzero, hbefore⟩ := List.findIdx?_eq_some_iff_getElem.mp hfind
  have htake : (chunk.take (nul + 1)).length = nul + 1 := by
    rw [List.length_take]
    omega
  have hpassed (hreliable : memory.Reliable) :
      ∀ i < copied + nul, memory.Passable (address + i) := by
    obtain ⟨hbytes, hreadable⟩ := hchunk hreliable
    refine passable_add (houtput hreliable).2 fun i hi => ⟨hreadable i (by omega), fun hbyte => ?_⟩
    have hget := List.getElem_of_eq hbytes (by omega : i < chunk.length)
    rw [getElem_bytesAt, hbyte] at hget
    exact hbefore i hi (by simp [hget])
  have hcases := memory.appendBytes_cases output (chunk.take (nul + 1)) (by omega) reads
  rw [htake, hlength] at hcases
  rcases hcases with ⟨happend, _⟩ | ⟨requested, happend, hlong⟩
  · rw [happend]
    refine ⟨hreads, fun stop hstop => (by cases hstop), fun hreliable => ?_⟩
    obtain ⟨hbytes, hreadable⟩ := hchunk hreliable
    have hget := List.getElem_of_eq hbytes hinside
    rw [getElem_bytesAt, of_decide_eq_true hzero] at hget
    have hall : output ++ chunk.take (nul + 1) = memory.bytesAt address (copied + nul + 1) := by
      rw [(houtput hreliable).1, hbytes, memory.take_bytesAt (by omega), bytesAt_append,
        Nat.add_assoc]
    rw [hall]
    refine .found (copied + nul) (by omega) (by omega) (hpassed hreliable) ?_ ?_
    · rw [← Nat.add_assoc]
      exact hreadable nul hinside
    · rw [← Nat.add_assoc]
      exact hget.symm
  · rw [happend]
    refine ⟨hreads, fun stop hstop => ⟨_, (Except.error.inj hstop).symm⟩, fun hreliable => ?_⟩
    have hlt := hlong hreliable
    exact .tooLong (by omega) (fun i hi => hpassed hreliable i (by omega)) requested

theorem copied_missingNul (hfits : maximum ≤ ISIZE_MAX)
    (hreads : memory.Contained address maximum reads)
    (hpassed : memory.Reliable → ∀ i < maximum, memory.Passable (address + i)) :
    memory.Copied address maximum (memory.CStringAnswer address maximum)
      (.error (.failed (.missingNul maximum)), reads) where
  contained := hreads
  orderly _ hstop := ⟨_, (Except.error.inj hstop).symm⟩
  answer hreliable := .missing hfits (hpassed hreliable)

theorem copyChunks_copied {address maximum : Nat} (hmaximum : address + maximum < 2 ^ 64)
    (turns : Nat) {copied : Nat} {output : List Byte} {reads : List ReadRequest}
    (hturns : maximum ≤ copied + turns) (hcopied : copied ≤ maximum) (hfits : copied ≤ ISIZE_MAX)
    (hlength : output.length = copied) (hreads : memory.Contained address maximum reads)
    (hpassed : memory.Reliable → output = memory.bytesAt address copied ∧
      ∀ i < copied, memory.Passable (address + i)) :
    memory.Copied address maximum (memory.CStringAnswer address maximum)
      (memory.copyChunks address maximum turns copied output reads) := by
  induction turns generalizing copied output reads with
  | zero =>
    unfold copyChunks
    rw [if_neg (by omega)]
    exact copied_missingNul (by omega) hreads fun hreliable i hi =>
      (hpassed hreliable).2 i (by omega)
  | succ _ ih =>
    unfold copyChunks
    split
    next hlt =>
      rcases copyTurn_cases hmaximum hlt hreads with
        ⟨chunk, after, hturn, hafter, hpos, hle, hchunk⟩ | ⟨e, after, hturn, hafter, hnul, hnot⟩
      · rw [bind_of_ok hturn]
        cases hfind : chunk.findIdx? (· = 0) with
        | some =>
          exact appendBytes_nul hmaximum hle hlength hafter hfind hpassed hchunk
        | none =>
          have hnonzero := List.findIdx?_eq_none_iff.mp hfind
          have hall (hreliable : memory.Reliable) :
              output ++ chunk = memory.bytesAt address (copied + chunk.length) ∧
                ∀ i < copied + chunk.length, memory.Passable (address + i) := by
            obtain ⟨hbytes, hreadable⟩ := hchunk hreliable
            obtain ⟨houtput, hbefore⟩ := hpassed hreliable
            refine ⟨?_, passable_add hbefore fun i hi => ⟨hreadable i hi, fun hbyte => ?_⟩⟩
            · rw [← bytesAt_append, ← houtput, ← hbytes]
            · have hget := List.getElem_of_eq hbytes hi
              rw [getElem_bytesAt, hbyte] at hget
              have hne := hnonzero _ (List.getElem_mem hi)
              rw [hget] at hne
              exact absurd hne (by decide)
          have hcases := memory.appendBytes_cases output chunk (by omega) after
          rw [hlength] at hcases
          rcases hcases with ⟨happend, hsmall⟩ | ⟨requested, happend, hlong⟩
          · have hadd : uncheckedAdd copied chunk.length = pure (copied + chunk.length) :=
              if_pos (by omega)
            dsimp only
            rw [bind_of_ok happend, hadd, pure_bind']
            exact ih (by omega) hle hsmall (by rw [List.length_append, hlength]) hafter hall
          · dsimp only
            rw [bind_of_error happend]
            refine ⟨hafter, fun stop hstop => ⟨_, (Except.error.inj hstop).symm⟩,
              fun hreliable => ?_⟩
            have hover := hlong hreliable
            exact .tooLong (by omega) (fun i hi => (hall hreliable).2 i (by omega)) requested
      · rw [bind_of_error hturn]
        refine ⟨hafter, fun stop hstop => ⟨e, (Except.error.inj hstop).symm⟩, fun hreliable => ?_⟩
        exact .unreadable copied hlt (hpassed hreliable).2 (hnot hreliable) e hnul
    next =>
      exact copied_missingNul (by omega) hreads fun hreliable i hi =>
        (hpassed hreliable).2 i (by omega)

inductive BytesAnswer (memory : ProcessMemory) (address length : Nat) :
    Except Stop (List Byte) → Prop where
  | read (readable : ∀ i < length, memory.Readable (address + i)) :
    BytesAnswer memory address length (.ok (memory.bytesAt address length))
  | unreadable (i : Nat) (lt : i < length) (not_readable : ¬ memory.Readable (address + i))
    (e : NativeMemoryError) : BytesAnswer memory address length (.error (.failed e))

theorem readTurn_cases (hlength : address + destination.length < 2 ^ 64)
    (hlt : copied < destination.length)
    (hreads : memory.Contained address destination.length reads) :
    (∃ next filled after, memory.readTurn address copied destination reads =
        (.ok (next, filled), after) ∧
      memory.Contained address destination.length after ∧ copied < next ∧
      next ≤ destination.length ∧ filled.length = destination.length ∧
      (memory.Reliable → destination.take copied = memory.bytesAt address copied →
        (∀ i < copied, memory.Readable (address + i)) →
        filled.take next = memory.bytesAt address next ∧
          ∀ i < next, memory.Readable (address + i))) ∨
    (∃ e after, memory.readTurn address copied destination reads = (.error (.failed e), after) ∧
      memory.Contained address destination.length after ∧
      (memory.Reliable → ¬ memory.Readable (address + copied))) := by
  unfold readTurn
  dsimp only
  rcases nextStep_cases _ hlt hlength (Nat.zero_lt_of_lt hlt) reads with
    ⟨step, region, hstep, hpos, hle, _, hquery, hreadable, hend⟩ | ⟨e, hstep, _, hnot⟩
  · have hwithin : memory.Within address destination.length ⟨address + copied, step⟩ := by
      refine ⟨Nat.le_add_right _ _, ?_, region, hquery, hreadable, hend⟩
      dsimp only
      omega
    have hadd : checkedAdd copied step .addressOverflow = pure (copied + step) :=
      if_pos (by omega)
    have hpiece : ((destination.take (copied + step)).drop copied).length = step := by
      rw [List.length_drop, List.length_take]
      omega
    have hne : (destination.take (copied + step)).drop copied ≠ [] :=
      List.ne_nil_of_length_pos (by omega)
    rw [bind_of_ok hstep]
    dsimp only
    rw [hadd, pure_bind', ensure_true hle, pure_bind']
    rcases memory.readChunk_cases (address + copied) hne reads with
      ⟨chunk, hchunk, hsame, hexact⟩ | ⟨e, hchunk, _, hno⟩
    · rw [hpiece] at hchunk hsame hexact
      have hfront : (destination.take copied).length = copied := by
        rw [List.length_take]
        omega
      refine Or.inl ⟨copied + step, _, _, bind_of_ok hchunk _, hreads.cons hwithin, by omega, hle,
        ?_, fun hreliable hbytes hbefore => ⟨?_, fun i hi => ?_⟩⟩
      · rw [List.length_append, List.length_append, hfront, hsame, List.length_drop]
        omega
      · have hboth : (destination.take copied ++ chunk).length = copied + step := by
          rw [List.length_append, hfront, hsame]
        rw [List.take_left' hboth, hbytes,
          hexact (hreliable.reads _ region _ hquery hreadable hend), bytesAt_append]
      · by_cases hold : i < copied
        · exact hbefore i hold
        · have hnew := hreliable.readable_of_lt (i := i - copied) hquery hreadable hend (by omega)
          rwa [show address + copied + (i - copied) = address + i by omega] at hnew
    · rw [hpiece] at hchunk hno
      refine Or.inr ⟨e, _, bind_of_error hchunk _, hreads.cons hwithin, fun hreliable => ?_⟩
      exact absurd (hreliable.reads _ region _ hquery hreadable hend) hno
  · exact Or.inr ⟨e, _, bind_of_error hstep _, hreads, fun _ => hnot⟩

theorem copied_ok (hreads : memory.Contained address destination.length reads)
    (hfilled : memory.Reliable → destination = memory.bytesAt address destination.length ∧
      ∀ i < destination.length, memory.Readable (address + i)) :
    memory.Copied address destination.length (memory.BytesAnswer address destination.length)
      (.ok destination, reads) where
  contained := hreads
  orderly _ hstop := by cases hstop
  answer hreliable := by
    obtain ⟨hbytes, hreadable⟩ := hfilled hreliable
    have hanswer := BytesAnswer.read hreadable
    rwa [← hbytes] at hanswer

theorem readRest_copied {address : Nat} (turns : Nat) {copied : Nat} {destination : List Byte}
    {reads : List ReadRequest} (hlength : address + destination.length < 2 ^ 64)
    (hturns : destination.length ≤ copied + turns) (hcopied : copied ≤ destination.length)
    (hreads : memory.Contained address destination.length reads)
    (hfilled : memory.Reliable → destination.take copied = memory.bytesAt address copied ∧
      ∀ i < copied, memory.Readable (address + i)) :
    memory.Copied address destination.length (memory.BytesAnswer address destination.length)
      (memory.readRest address turns copied destination reads) := by
  induction turns generalizing copied destination reads with
  | zero =>
    have heq : copied = destination.length := by omega
    subst heq
    unfold readRest
    rw [if_neg (Nat.lt_irrefl _)]
    rw [List.take_length] at hfilled
    exact copied_ok hreads hfilled
  | succ _ ih =>
    unfold readRest
    split
    next hlt =>
      rcases readTurn_cases hlength hlt hreads with
        ⟨next, filled, after, hturn, hafter, hpos, hle, hsame, hnext⟩ |
        ⟨e, after, hturn, hafter, hnot⟩
      · rw [bind_of_ok hturn]
        dsimp only
        rw [← hsame] at hlength hturns hafter hle ⊢
        exact ih hlength (by omega) hle hafter fun hreliable =>
          hnext hreliable (hfilled hreliable).1 (hfilled hreliable).2
      · rw [bind_of_error hturn]
        refine ⟨hafter, fun stop hstop => ⟨e, (Except.error.inj hstop).symm⟩, fun hreliable => ?_⟩
        exact .unreadable copied hlt (hnot hreliable) e
    next =>
      have heq : copied = destination.length := by omega
      subst heq
      rw [List.take_length] at hfilled
      exact copied_ok hreads hfilled

/-- The first byte that is no part of the text ends it, and everything up to it can be read. -/
structure EndsAt (memory : ProcessMemory) (source nul : Nat) : Prop where
  text : ∀ i < nul, memory.byte (source + i) ≠ 0
  byte : memory.byte (source + nul) = 0
  readable : ∀ i ≤ nul, memory.Readable (source + i)

variable {source : Nat}

theorem EndsAt.unique {first second : Nat} (hfirst : memory.EndsAt source first)
    (hsecond : memory.EndsAt source second) : first = second := by
  rcases Nat.lt_trichotomy first second with hlt | heq | hlt
  · exact absurd hfirst.byte (hsecond.text first hlt)
  · exact heq
  · exact absurd hsecond.byte (hfirst.text second hlt)

structure StringExact (memory : ProcessMemory) (source maximum : Nat)
    (result : Except Stop (List Byte)) : Prop where
  ok_iff : ∀ bytes, result = .ok bytes ↔ source ≠ 0 ∧ source + maximum < 2 ^ 64 ∧
    ∃ nul < maximum, nul + 1 ≤ ISIZE_MAX ∧ memory.EndsAt source nul ∧
      bytes = memory.bytesAt source (nul + 1)
  missingNul_iff : ∀ limit, result = .error (.failed (.missingNul limit)) ↔ limit = maximum ∧
    source ≠ 0 ∧ maximum ≠ 0 ∧ source + maximum < 2 ^ 64 ∧ maximum ≤ ISIZE_MAX ∧
      ∀ i < maximum, memory.Readable (source + i) ∧ memory.byte (source + i) ≠ 0

def BytesExact (memory : ProcessMemory) (source length maximum : Nat)
    (result : Except Stop (List Byte)) : Prop :=
  ∀ bytes, result = .ok bytes ↔ source ≠ 0 ∧ maximum ≠ 0 ∧ length ≤ maximum ∧
    source + length < 2 ^ 64 ∧ length ≤ ISIZE_MAX ∧ (∀ i < length, memory.Readable (source + i)) ∧
      bytes = memory.bytesAt source length

theorem CStringAnswer.exact {result : Except Stop (List Byte)}
    (h : memory.CStringAnswer source maximum result) (hsource : source ≠ 0)
    (hmaximum : maximum ≠ 0) (hend : source + maximum < 2 ^ 64) :
    memory.StringExact source maximum result := by
  cases h with
  | found nul hlt hfits hpassed hreadable hbyte =>
    have hends : memory.EndsAt source nul := by
      refine ⟨fun i hi => (hpassed i hi).2, hbyte, fun i hi => ?_⟩
      rcases Nat.lt_or_eq_of_le hi with hi | rfl
      · exact (hpassed i hi).1
      · exact hreadable
    refine ⟨fun bytes => ⟨fun hok => ?_, ?_⟩, fun limit => ⟨fun herror => (by cases herror), ?_⟩⟩
    · exact ⟨hsource, hend, nul, hlt, hfits, hends, (Except.ok.inj hok).symm⟩
    · rintro ⟨_, _, other, _, _, hother, rfl⟩
      rw [hends.unique hother]
    · rintro ⟨_, _, _, _, _, hall⟩
      exact absurd hbyte (hall nul hlt).2
  | missing hfits hpassed =>
    refine ⟨fun bytes => ⟨fun hok => (by cases hok), ?_⟩, fun limit => ⟨fun herror => ?_, ?_⟩⟩
    · rintro ⟨_, _, nul, hlt, _, hends, _⟩
      exact absurd hends.byte (hpassed nul hlt).2
    · cases herror
      exact ⟨rfl, hsource, hmaximum, hend, hfits, hpassed⟩
    · rintro ⟨rfl, _⟩
      rfl
  | unreadable i hlt hpassed hnot e hne =>
    refine ⟨fun bytes => ⟨fun hok => (by cases hok), ?_⟩, fun limit => ⟨fun herror => ?_, ?_⟩⟩
    · rintro ⟨_, _, nul, _, _, hends, _⟩
      rcases Nat.lt_or_ge nul i with hi | hi
      · exact absurd hends.byte (hpassed nul hi).2
      · exact absurd (hends.readable i hi) hnot
    · cases herror
      exact absurd rfl (hne limit)
    · rintro ⟨_, _, _, _, _, hall⟩
      exact absurd (hall i hlt).1 hnot
  | tooLong _ hpassed =>
    refine ⟨fun bytes => ⟨fun hok => (by cases hok), ?_⟩, fun limit => ⟨fun herror => ?_, ?_⟩⟩
    · rintro ⟨_, _, nul, _, hfits, hends, _⟩
      exact absurd hends.byte (hpassed nul hfits).2
    · cases herror
    · rintro ⟨_, _, _, _, hfits, _⟩
      omega

theorem copied_refused {Answer : Except Stop (List Byte) → Prop} {e : NativeMemoryError}
    (hanswer : Answer (.error (.failed e))) :
    memory.Copied address length Answer (.error (.failed e), []) where
  contained _ hmem := by cases hmem
  orderly _ hstop := ⟨e, (Except.error.inj hstop).symm⟩
  answer _ := hanswer

theorem stringExact_refused {e : NativeMemoryError}
    (hinvalid : source ≠ 0 → maximum ≠ 0 → ¬ source + maximum < 2 ^ 64)
    (hne : ∀ limit, e ≠ .missingNul limit) :
    memory.StringExact source maximum (.error (.failed e)) where
  ok_iff bytes := by
    refine ⟨fun hok => (by cases hok), ?_⟩
    rintro ⟨hsource, hend, nul, hlt, _⟩
    exact absurd hend (hinvalid hsource (Nat.ne_of_gt (Nat.zero_lt_of_lt hlt)))
  missingNul_iff limit := by
    refine ⟨fun herror => ?_, ?_⟩
    · cases herror
      exact absurd rfl (hne limit)
    · rintro ⟨_, hsource, hmaximum, hend, _⟩
      exact absurd hend (hinvalid hsource hmaximum)

theorem bytesExact_refused {stop : Stop}
    (hinvalid : source ≠ 0 → maximum ≠ 0 → length ≤ maximum → source + length < 2 ^ 64 →
      length ≤ ISIZE_MAX → ¬ ∀ i < length, memory.Readable (source + i)) :
    memory.BytesExact source length maximum (.error stop) := by
  refine fun bytes => ⟨fun hok => (by cases hok), ?_⟩
  rintro ⟨hsource, hmaximum, hle, hend, hfits, hall, _⟩
  exact absurd hall (hinvalid hsource hmaximum hle hend hfits)

theorem copyCString_copied (memory : ProcessMemory) (source maximum : BitVec 64) :
    memory.Copied source.toNat maximum.toNat (memory.StringExact source.toNat maximum.toNat)
      (memory.copyCString source maximum []) := by
  unfold copyCString validateAddress
  by_cases hsource : source.toNat ≠ 0
  · by_cases hmaximum : maximum.toNat ≠ 0
    · by_cases hend : source.toNat + maximum.toNat < 2 ^ 64
      · have hadd : checkedAdd source.toNat maximum.toNat .addressOverflow =
            pure (source.toNat + maximum.toNat) := if_pos hend
        have hcopied := @copyChunks_copied memory _ _ hend maximum.toNat 0 [] [] (by omega)
          (by omega) (by decide) rfl (fun _ hmem => (by cases hmem)) fun _ =>
          ⟨rfl, fun _ hi => absurd hi (Nat.not_lt_zero _)⟩
        rw [ensure_true hsource, pure_bind', ensure_true hmaximum, pure_bind', hadd, pure_bind']
        exact ⟨hcopied.contained, hcopied.orderly, fun hreliable =>
          (hcopied.answer hreliable).exact hsource hmaximum hend⟩
      · have hadd : checkedAdd source.toNat maximum.toNat .addressOverflow =
            error .addressOverflow := if_neg hend
        rw [ensure_true hsource, pure_bind', ensure_true hmaximum, pure_bind', hadd]
        exact copied_refused (stringExact_refused (fun _ _ => hend) (by simp))
    · rw [ensure_true hsource, pure_bind', ensure_false hmaximum]
      exact copied_refused (stringExact_refused (fun _ hne => absurd hne hmaximum) (by simp))
  · rw [ensure_false hsource]
    exact copied_refused (stringExact_refused (fun hne => absurd hne hsource) (by simp))

theorem BytesAnswer.exact {result : Except Stop (List Byte)}
    (h : memory.BytesAnswer source length result) (hsource : source ≠ 0) (hmaximum : maximum ≠ 0)
    (hle : length ≤ maximum) (hend : source + length < 2 ^ 64) (hfits : length ≤ ISIZE_MAX) :
    memory.BytesExact source length maximum result := by
  cases h with
  | read hreadable =>
    refine fun bytes => ⟨fun hok => ?_, ?_⟩
    · exact ⟨hsource, hmaximum, hle, hend, hfits, hreadable, (Except.ok.inj hok).symm⟩
    · rintro ⟨_, _, _, _, _, _, rfl⟩
      rfl
  | unreadable i hlt hnot =>
    exact bytesExact_refused fun _ _ _ _ _ hall => hnot (hall i hlt)

theorem readAllocated_copied (hsource : source ≠ 0) (hmaximum : maximum ≠ 0)
    (hle : length ≤ maximum) (hend : source + length < 2 ^ 64) :
    memory.Copied source length (memory.BytesExact source length maximum)
      ((memory.allocateZeroed length >>= fun output => memory.readExact source output) []) := by
  have hnone : memory.Contained source length [] := fun _ hmem => by cases hmem
  rcases memory.allocateZeroed_cases length [] with ⟨hallocate, hfits⟩ | ⟨hallocate, hlong⟩
  · have hzeroed : (List.replicate length (0 : Byte)).length = length := List.length_replicate
    have hcopied := @readRest_copied memory source length 0 (List.replicate length 0) []
      (by omega) (by omega) (by omega) (fun _ hmem => (by cases hmem)) fun _ =>
      ⟨rfl, fun _ hi => absurd hi (Nat.not_lt_zero _)⟩
    rw [hzeroed] at hcopied
    rw [bind_of_ok hallocate, readExact, hzeroed]
    exact ⟨hcopied.contained, hcopied.orderly, fun hreliable =>
      (hcopied.answer hreliable).exact hsource hmaximum hle hend hfits⟩
  · rw [bind_of_error hallocate]
    refine ⟨hnone, fun stop hstop => ⟨_, (Except.error.inj hstop).symm⟩, fun hreliable => ?_⟩
    exact bytesExact_refused fun _ _ _ _ hfits => absurd (hlong hreliable) (Nat.not_lt.mpr hfits)

theorem copyBytes_copied (memory : ProcessMemory) (source length maximum : BitVec 64) :
    memory.Copied source.toNat length.toNat
      (memory.BytesExact source.toNat length.toNat maximum.toNat)
      (memory.copyBytes source length maximum []) := by
  unfold copyBytes
  by_cases hsource : source.toNat ≠ 0
  · by_cases hmaximum : maximum.toNat ≠ 0
    · by_cases hle : length.toNat ≤ maximum.toNat
      · by_cases hend : source.toNat + length.toNat < 2 ^ 64
        · have hadd : checkedAdd source.toNat length.toNat .addressOverflow =
              pure (source.toNat + length.toNat) := if_pos hend
          rw [ensure_true hsource, pure_bind', ensure_true hmaximum, pure_bind', ensure_true hle,
            pure_bind', hadd, pure_bind']
          split
          next hzero =>
            rw [hzero]
            refine ⟨fun _ hmem => (by cases hmem), fun _ hstop => (by cases hstop),
              fun _ bytes => ⟨fun hok => ?_, ?_⟩⟩
            · refine ⟨hsource, hmaximum, by omega, by omega, by decide, by simp, ?_⟩
              exact (Except.ok.inj hok).symm
            · rintro ⟨_, _, _, _, _, _, rfl⟩
              rfl
          next => exact readAllocated_copied hsource hmaximum hle hend
        · have hadd : checkedAdd source.toNat length.toNat .addressOverflow =
              error .addressOverflow := if_neg hend
          rw [ensure_true hsource, pure_bind', ensure_true hmaximum, pure_bind', ensure_true hle,
            pure_bind', hadd]
          exact copied_refused (bytesExact_refused fun _ _ _ hfits => absurd hfits hend)
      · rw [ensure_true hsource, pure_bind', ensure_true hmaximum, pure_bind', ensure_false hle]
        exact copied_refused (bytesExact_refused fun _ _ hfits => absurd hfits hle)
    · rw [ensure_true hsource, pure_bind', ensure_false hmaximum]
      exact copied_refused (bytesExact_refused fun _ hne => absurd hne hmaximum)
  · rw [ensure_false hsource]
    exact copied_refused (bytesExact_refused fun hne => absurd hne hsource)

/-- Bounded copies read nothing but what was asked for and found readable, and of a memory that the
system answers for they return exactly the bytes. -/
theorem native_copies_exact (memory : ProcessMemory) (source length maximum : BitVec 64) :
    memory.Copied source.toNat maximum.toNat (memory.StringExact source.toNat maximum.toNat)
        (memory.copyCString source maximum []) ∧
      memory.Copied source.toNat length.toNat
        (memory.BytesExact source.toNat length.toNat maximum.toNat)
        (memory.copyBytes source length maximum []) :=
  ⟨copyCString_copied memory source maximum, copyBytes_copied memory source length maximum⟩

def onePage : ProcessMemory where
  byte address := if address = 4100 then 0 else 7
  query address :=
    if 4096 ≤ address ∧ address < 8192 then
      some ⟨address, 8192 - address, MEM_COMMIT, PAGE_READWRITE⟩
    else none
  read address length :=
    ⟨true, length, fun offset => if address + offset = 4100 then 0 else 7⟩
  allocates _ _ := true

theorem onePage_readableAt (h : 4096 ≤ address ∧ address < 8192) :
    RegionInformation.ReadableAt ⟨address, 8192 - address, MEM_COMMIT, PAGE_READWRITE⟩ address := by
  have hreadable : readableProtection (PAGE_READWRITE &&& 0xff) = true := by decide
  have hguard : PAGE_READWRITE &&& PAGE_GUARD = 0 := by decide
  refine ⟨rfl, hguard, hreadable, ?_, Nat.le_refl _, ?_⟩
  · dsimp only
    omega
  · dsimp only
    omega

theorem onePage_readable (h : 4096 ≤ address ∧ address < 8192) : onePage.Readable address :=
  ⟨_, if_pos h, onePage_readableAt h⟩

theorem reliable_onePage : onePage.Reliable where
  consistent address region hquery _ later hle hlt := by
    dsimp only [onePage] at hquery
    split at hquery
    next =>
      cases hquery
      dsimp only at hlt
      exact onePage_readable (by omega)
    next => cases hquery
  reads _ _ _ _ _ _ := rfl
  allocates _ _ _ := rfl

def tornPage : ProcessMemory :=
  { onePage with query := fun address => if address = 4097 then none else onePage.query address }

/-- A length over the limit and a limit of zero are refused though the bytes can be read, and a
region is believed about all its bytes. -/
theorem copyBytes_overLimit :
    onePage.Reliable ∧ (∀ i < 2, onePage.Readable (4096 + i)) ∧
      (onePage.copyBytes 4096 2 1 []).1 = .error (.failed (.lengthExceedsLimit 2 1)) ∧
      (onePage.copyCString 4096 0 []).1 = .error (.failed .invalidLimit) ∧
      ¬ tornPage.Readable 4097 ∧ (tornPage.copyBytes 4096 2 2 []).1 = .ok [7, 7] := by
  refine ⟨reliable_onePage, fun i hi => onePage_readable (by omega), by decide, by decide, ?_,
    by decide⟩
  rintro ⟨region, hquery, _⟩
  cases hquery

/-- The string that starts the page. -/
example : (onePage.copyCString 4096 64 []).1 = .ok [7, 7, 7, 7, 0] := by decide

end ProcessMemory

end Nexus.NativeMemory
