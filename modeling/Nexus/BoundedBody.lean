import Mathlib.Data.Nat.Digits.Defs
import Nexus.HttpClients

namespace Nexus

def utf16Digit (unit : UInt16) : Option Nat :=
  if 48 ≤ unit.toNat ∧ unit.toNat ≤ 57 then some (unit.toNat - 48) else none

def checkedDigit (current digit : Nat) : Option Nat :=
  if current * 10 < 2 ^ 64 ∧ current * 10 + digit < 2 ^ 64 then some (current * 10 + digit)
  else none

def pushDigit (current : Nat) (unit : UInt16) : Except TransportError Nat :=
  match utf16Digit unit with
  | none => .error .invalidResponse
  | some digit =>
    match checkedDigit current digit with
    | none => .error .invalidResponse
    | some value => .ok value

def parseContentLengthUtf16 (value : List UInt16) : Except TransportError UInt64 :=
  if value = [] then .error .invalidResponse else (value.foldlM pushDigit 0).map UInt64.ofNat

def decimalValue (units : List UInt16) : Nat :=
  Nat.ofDigits 10 (units.map fun unit => unit.toNat - 48).reverse

structure WritesLength (units : List UInt16) (length : UInt64) : Prop where
  nonempty : units ≠ []
  digits : ∀ unit ∈ units, 48 ≤ unit.toNat ∧ unit.toNat ≤ 57
  value : decimalValue units = length.toNat

theorem decimalValue_concat (units : List UInt16) (unit : UInt16) :
    decimalValue (units ++ [unit]) = decimalValue units * 10 + (unit.toNat - 48) := by
  unfold decimalValue
  rw [List.map_append, List.map_singleton, List.reverse_append, List.reverse_singleton,
    List.singleton_append, Nat.ofDigits_cons]
  omega

theorem pushDigit_ok_iff {current value : Nat} {unit : UInt16} :
    pushDigit current unit = .ok value ↔ (48 ≤ unit.toNat ∧ unit.toNat ≤ 57) ∧ value = current * 10 + (unit.toNat - 48) ∧
      value < 2 ^ 64 := by
  unfold pushDigit utf16Digit checkedDigit
  by_cases hdigit : 48 ≤ unit.toNat ∧ unit.toNat ≤ 57
  · rw [if_pos hdigit]
    dsimp only
    by_cases hfits : current * 10 + (unit.toNat - 48) < 2 ^ 64
    · rw [if_pos ⟨by omega, hfits⟩]
      constructor
      · intro h
        cases h
        exact ⟨hdigit, rfl, hfits⟩
      · rintro ⟨_, rfl, _⟩
        rfl
    · rw [if_neg fun h => hfits h.2]
      constructor
      · intro h
        cases h
      · rintro ⟨_, rfl, hbound⟩
        exact absurd hbound hfits
  · rw [if_neg hdigit]
    exact ⟨fun h => (by cases h), fun h => absurd h.1 hdigit⟩

theorem foldlM_pushDigit_ok_iff (units : List UInt16) (length : Nat) :
    units.foldlM pushDigit 0 = .ok length ↔
      (∀ unit ∈ units, 48 ≤ unit.toNat ∧ unit.toNat ≤ 57) ∧ decimalValue units = length ∧
        length < 2 ^ 64 := by
  induction units using List.reverseRecOn generalizing length with
  | nil =>
    constructor
    · intro h
      cases h
      exact ⟨by simp, rfl, by omega⟩
    · rintro ⟨_, rfl, _⟩
      rfl
  | append_singleton units unit ih =>
    rw [List.foldlM_append, decimalValue_concat]
    constructor
    · intro h
      obtain ⟨before, hbefore, hpush⟩ := except_bind_ok h
      obtain ⟨hdigits, hvalue, _⟩ := (ih before).mp hbefore
      rw [List.foldlM_cons] at hpush
      obtain ⟨_, hafter, hdone⟩ := except_bind_ok hpush
      cases hdone
      obtain ⟨hdigit, hlength, hbound⟩ := pushDigit_ok_iff.mp hafter
      refine ⟨fun other hmem => ?_, by rw [hvalue, hlength], hbound⟩
      rcases List.mem_append.mp hmem with hmem | hmem
      · exact hdigits other hmem
      · rw [List.mem_singleton.mp hmem]
        exact hdigit
    · rintro ⟨hdigits, rfl, hbound⟩
      have hbefore := (ih (decimalValue units)).mpr
        ⟨fun other hmem => hdigits other (List.mem_append_left _ hmem), rfl, by omega⟩
      have hafter : pushDigit (decimalValue units) unit =
          .ok (decimalValue units * 10 + (unit.toNat - 48)) :=
        pushDigit_ok_iff.mpr ⟨hdigits unit (by simp), rfl, hbound⟩
      rw [hbefore]
      show [unit].foldlM pushDigit (decimalValue units) = _
      rw [List.foldlM_cons, hafter]
      rfl

theorem parseContentLengthUtf16_ok_iff {units : List UInt16} {length : UInt64} :
    parseContentLengthUtf16 units = .ok length ↔ WritesLength units length := by
  unfold parseContentLengthUtf16
  by_cases hempty : units = []
  · rw [if_pos hempty]
    exact ⟨fun h => (by cases h), fun h => absurd hempty h.nonempty⟩
  · rw [if_neg hempty]
    constructor
    · intro h
      cases hfold : units.foldlM pushDigit 0 with
      | error =>
        rw [hfold] at h
        cases h
      | ok value =>
        rw [hfold] at h
        cases h
        obtain ⟨hdigits, hvalue, hbound⟩ := (foldlM_pushDigit_ok_iff units value).mp hfold
        refine ⟨hempty, hdigits, ?_⟩
        rw [hvalue, UInt64.toNat_ofNat', Nat.mod_eq_of_lt hbound]
    · rintro ⟨_, hdigits, hvalue⟩
      rw [(foldlM_pushDigit_ok_iff units length.toNat).mpr ⟨hdigits, hvalue, length.toNat_lt⟩]
      show Except.ok (UInt64.ofNat length.toNat) = _
      rw [UInt64.ofNat_toNat]

/-- The bytes of a body that have been read, which keep within its limit. -/
structure BoundedBody where
  bytes : List UInt8
  maxBytes : Fin (2 ^ 64)
  declaredLength : Option UInt64
  fits : bytes.length ≤ maxBytes

namespace BoundedBody

def new (maxBytes : Fin (2 ^ 64)) (declaredLength : Option UInt64) :
    Except TransportError BoundedBody :=
  if declaredLength.any fun length => maxBytes.val < length.toNat then .error .bodyTooLarge
  else .ok ⟨[], maxBytes, declaredLength, Nat.zero_le _⟩

def remaining (body : BoundedBody) : Nat := body.maxBytes - body.bytes.length

def nextReadSize (body : BoundedBody) (bufferSize : Nat) : Nat :=
  min (min (body.remaining + 1) (2 ^ 64 - 1)) bufferSize

def push (body : BoundedBody) (chunk : List UInt8) : Except TransportError BoundedBody :=
  if h : body.remaining < chunk.length then .error .bodyTooLarge
  else .ok ⟨body.bytes ++ chunk, body.maxBytes, body.declaredLength, by
    have hfits := body.fits
    unfold remaining at h
    rw [List.length_append]
    omega⟩

def finish (body : BoundedBody) : Except TransportError (List UInt8) :=
  if body.declaredLength.any fun declared => declared.toNat ≠ body.bytes.length then
    .error .invalidResponse
  else .ok body.bytes

variable {chunk : List UInt8}

theorem push_ok {body next : BoundedBody} (h : body.push chunk = .ok next) :
    next.bytes = body.bytes ++ chunk ∧ next.maxBytes = body.maxBytes ∧
      next.declaredLength = body.declaredLength := by
  unfold push at h
  split at h
  next => cases h
  next =>
    cases h
    exact ⟨rfl, rfl, rfl⟩

theorem push_error {body : BoundedBody} {error : TransportError}
    (h : body.push chunk = .error error) :
    error = .bodyTooLarge ∧ body.maxBytes < (body.bytes ++ chunk).length := by
  unfold push at h
  split at h
  next hlarge =>
    cases h
    unfold remaining at hlarge
    rw [List.length_append]
    exact ⟨rfl, by omega⟩
  next => cases h

end BoundedBody

def readBufferBytes : Nat := 16 * 1024

inductive ReadResult where
  | failed
  | read (chunk : List UInt8)

def readLoop (results : Nat → ReadResult) (turn : Nat) (body : BoundedBody) :
    List Nat × Except TransportError BoundedBody :=
  let request := body.nextReadSize readBufferBytes
  if 2 ^ 32 ≤ request then ([], .error .invalidResponse)
  else
    match results turn with
    | .failed => ([request], .error .requestFailed)
    | .read [] => ([request], .ok body)
    | .read (byte :: rest) =>
      if readBufferBytes < (byte :: rest).length ∨ request < (byte :: rest).length then
        ([request], .error .invalidResponse)
      else
        match _hpush : body.push (byte :: rest) with
        | .error error => ([request], .error error)
        | .ok next =>
          let (requests, outcome) := readLoop results (turn + 1) next
          (request :: requests, outcome)
termination_by body.remaining
decreasing_by
  obtain ⟨hbytes, hmax, _⟩ := BoundedBody.push_ok _hpush
  have hfits := next.fits
  unfold BoundedBody.remaining
  rw [hbytes, hmax, List.length_append, List.length_cons] at *
  omega

def readBody (maxBytes : Fin (2 ^ 64)) (declaredLength : Option UInt64)
    (results : Nat → ReadResult) : List Nat × Except TransportError (List UInt8) :=
  match BoundedBody.new maxBytes declaredLength with
  | .error error => ([], .error error)
  | .ok body =>
    let (requests, outcome) := readLoop results 0 body
    (requests, outcome.bind BoundedBody.finish)

namespace ReadResult

def bytes : ReadResult → List UInt8
  | .failed => []
  | .read chunk => chunk

def Gives (result : ReadResult) : Prop := result.bytes ≠ []

end ReadResult

def arrived (results : Nat → ReadResult) : Nat → List UInt8
  | 0 => []
  | turn + 1 => arrived results turn ++ (results turn).bytes

def WithinRequests (results : Nat → ReadResult) (turn : Nat) (requests : List Nat) : Prop :=
  ∀ place request, requests[place]? = some request →
    (results (turn + place)).bytes.length ≤ request

inductive StopsAt (results : Nat → ReadResult) (maxBytes turn : Nat) :
    Except TransportError (List UInt8) → Prop
  | failed : results turn = .failed → StopsAt results maxBytes turn (.error .requestFailed)
  | ended : results turn = .read [] → StopsAt results maxBytes turn (.ok (arrived results turn))
  | excess : (results turn).Gives → maxBytes < (arrived results (turn + 1)).length →
    StopsAt results maxBytes turn (.error .bodyTooLarge)

variable {turn : Nat}

theorem arrived_length_mono (results : Nat → ReadResult) {later : Nat} (h : turn ≤ later) :
    (arrived results turn).length ≤ (arrived results later).length := by
  induction later, h using Nat.le_induction with
  | base => exact Nat.le_refl _
  | succ =>
    rw [arrived, List.length_append]
    omega

theorem BoundedBody.nextReadSize_bounds (body : BoundedBody) :
    1 ≤ body.nextReadSize readBufferBytes ∧
      body.nextReadSize readBufferBytes ≤ readBufferBytes := by
  unfold nextReadSize readBufferBytes
  omega

theorem readLoop_requests (results : Nat → ReadResult) (turn : Nat) (body : BoundedBody) :
    ∀ request ∈ (readLoop results turn body).1, 1 ≤ request ∧ request ≤ readBufferBytes := by
  have hbounds := body.nextReadSize_bounds
  fun_induction readLoop results turn body with
  | case1 => simp
  | case2 | case3 | case4 | case5 => simpa using hbounds
  | case6 turn body request _ byte rest _ _ next hpush requests outcome hrest ih =>
    intro asked hasked
    rcases List.mem_cons.mp hasked with rfl | hasked
    · exact hbounds
    · rw [hrest] at ih
      exact ih next.nextReadSize_bounds asked hasked

theorem readBody_requests (maxBytes : Fin (2 ^ 64)) (declaredLength : Option UInt64)
    (results : Nat → ReadResult) : ∀ request ∈ (readBody maxBytes declaredLength results).1,
      1 ≤ request ∧ request ≤ readBufferBytes := by
  unfold readBody
  split
  · simp
  · exact readLoop_requests results 0 _

theorem WithinRequests.tail {results : Nat → ReadResult} {request : Nat} {requests : List Nat}
    (h : WithinRequests results turn (request :: requests)) :
    WithinRequests results (turn + 1) requests := by
  intro place asked hasked
  have hwithin := h (place + 1) asked (by simpa using hasked)
  rw [show turn + 1 + place = turn + (place + 1) by omega]
  exact hwithin

/-- The loop reads on while there are bytes within the limit, up to a failure, the end of the stream
or a byte too many. -/
theorem readLoop_stops (results : Nat → ReadResult) (turn : Nat) (body : BoundedBody)
    (hbytes : body.bytes = arrived results turn)
    (hwithin : WithinRequests results turn (readLoop results turn body).1) :
    ∃ stop, turn ≤ stop ∧ (∀ place, turn ≤ place → place < stop → (results place).Gives) ∧
      (arrived results stop).length ≤ body.maxBytes ∧
      StopsAt results body.maxBytes stop
        ((readLoop results turn body).2.map BoundedBody.bytes) := by
  have hsize := body.nextReadSize_bounds
  have hfits := body.fits
  fun_induction readLoop results turn body with
  | case1 turn body request hlarge =>
    have hbuffer : readBufferBytes = 16 * 1024 := rfl
    omega
  | case2 turn body request _ hresult =>
    rw [hbytes] at hfits
    exact ⟨turn, Nat.le_refl _, by omega, hfits, .failed hresult⟩
  | case3 turn body request _ hresult =>
    rw [hbytes] at hfits
    refine ⟨turn, Nat.le_refl _, by omega, hfits, ?_⟩
    show StopsAt results body.maxBytes turn (.ok body.bytes)
    rw [hbytes]
    exact .ended hresult
  | case4 turn body request _ byte rest hresult hlarge =>
    have hlength := hwithin 0 request rfl
    rw [Nat.add_zero, hresult] at hlength
    change (byte :: rest).length ≤ request at hlength
    omega
  | case5 turn body request _ byte rest hresult _ error hpush =>
    obtain ⟨rfl, hexcess⟩ := BoundedBody.push_error hpush
    have hgives : (results turn).Gives := by simp [ReadResult.Gives, hresult, ReadResult.bytes]
    rw [hbytes] at hfits
    refine ⟨turn, Nat.le_refl _, by omega, hfits, .excess hgives ?_⟩
    rw [arrived, hresult, ← hbytes]
    exact hexcess
  | case6 turn body request _ byte rest hresult _ next hpush requests outcome hrest ih =>
    obtain ⟨hnext, hmax, _⟩ := BoundedBody.push_ok hpush
    have harrived : next.bytes = arrived results (turn + 1) := by
      rw [hnext, arrived, hresult, hbytes]
      rfl
    rw [hrest] at ih
    obtain ⟨stop, _, hgives, hstop, hstops⟩ :=
      ih harrived hwithin.tail next.nextReadSize_bounds next.fits
    rw [hmax] at hstop hstops
    refine ⟨stop, by omega, fun place hfrom hto => ?_, hstop, hstops⟩
    rcases Nat.eq_or_lt_of_le hfrom with rfl | hafter
    · simp [ReadResult.Gives, hresult, ReadResult.bytes]
    · exact hgives place hafter hto

variable {body : BoundedBody}

theorem readLoop_declared {results : Nat → ReadResult} {last : BoundedBody}
    (h : (readLoop results turn body).2 = .ok last) :
    last.declaredLength = body.declaredLength := by
  fun_induction readLoop results turn body with
  | case3 =>
    cases h
    rfl
  | case6 turn body request _ byte rest hresult _ next hpush requests outcome hrest ih =>
    rw [hrest] at ih
    rw [ih h]
    exact (BoundedBody.push_ok hpush).2.2
  | _ => cases h

/-- What a complete body is: the declared length is within the limit, the reads give bytes up to the
end of the stream, and all of them are within the limit and as many as declared. -/
def Complete (maxBytes : Nat) (declaredLength : Option UInt64) (results : Nat → ReadResult)
    (body : List UInt8) : Prop :=
  (∀ length ∈ declaredLength, length.toNat ≤ maxBytes) ∧
    ∃ stop, (∀ place < stop, (results place).Gives) ∧ results stop = .read [] ∧
      body = arrived results stop ∧ body.length ≤ maxBytes ∧
      ∀ length ∈ declaredLength, length.toNat = body.length

/-- What a body over its limit is: so it is declared, or a byte too many arrives before a failure
and the end of the stream. -/
def Excessive (maxBytes : Nat) (declaredLength : Option UInt64) (results : Nat → ReadResult) :
    Prop :=
  (∃ length ∈ declaredLength, maxBytes < length.toNat) ∨
    ∃ turn, (∀ place ≤ turn, (results place).Gives) ∧
      maxBytes < (arrived results (turn + 1)).length

theorem finish_ok_iff {bytes : List UInt8} : body.finish = .ok bytes ↔
    body.bytes = bytes ∧ ∀ length ∈ body.declaredLength, length.toNat = bytes.length := by
  unfold BoundedBody.finish
  cases body.declaredLength with
  | none => simp
  | some length => by_cases hlength : length.toNat = body.bytes.length <;> simp [hlength] <;> grind

theorem Gives.not_end {results : Nat → ReadResult} (h : (results turn).Gives) :
    results turn ≠ .failed ∧ results turn ≠ .read [] := by
  constructor <;> (intro hresult; rw [hresult] at h; exact h rfl)

section Outcomes

variable {maxBytes : Fin (2 ^ 64)} {declaredLength : Option UInt64} {results : Nat → ReadResult}
  {stop : Nat} {outcome : Except TransportError (List UInt8)}

theorem StopsAt.ok_iff (hgives : ∀ place < stop, (results place).Gives)
    (hstop : (arrived results stop).length ≤ maxBytes) (h : StopsAt results maxBytes stop outcome)
    (bytes : List UInt8) : outcome = .ok bytes ↔ ∃ last, (∀ place < last, (results place).Gives) ∧
      results last = .read [] ∧ bytes = arrived results last ∧ bytes.length ≤ maxBytes := by
  constructor
  · rintro rfl
    cases h with
    | ended hended => exact ⟨stop, hgives, hended, rfl, hstop⟩
  · rintro ⟨last, hbefore, hended, rfl, hfits⟩
    rcases Nat.lt_trichotomy last stop with hlt | rfl | hlt
    · exact absurd hended (Gives.not_end (hgives last hlt)).2
    · cases h with
      | failed hfailed =>
        rw [hfailed] at hended
        cases hended
      | ended => rfl
      | excess hmore => exact absurd hended (Gives.not_end hmore).2
    · have hmore := Gives.not_end (hbefore stop hlt)
      cases h with
      | failed hfailed => exact absurd hfailed hmore.1
      | ended hearly => exact absurd hearly hmore.2
      | excess =>
        have hmono := arrived_length_mono results (show stop + 1 ≤ last from hlt)
        omega

theorem StopsAt.excess_iff (hgives : ∀ place < stop, (results place).Gives)
    (hstop : (arrived results stop).length ≤ maxBytes) (h : StopsAt results maxBytes stop outcome) :
    outcome = .error .bodyTooLarge ↔
      ∃ turn, (∀ place ≤ turn, (results place).Gives) ∧
        maxBytes < (arrived results (turn + 1)).length := by
  constructor
  · rintro rfl
    cases h with
    | excess hmore hexcess =>
      refine ⟨stop, fun place hplace => ?_, hexcess⟩
      rcases Nat.lt_or_eq_of_le hplace with hlt | rfl
      · exact hgives place hlt
      · exact hmore
  · rintro ⟨turn, hbefore, hexcess⟩
    rcases Nat.lt_or_ge turn stop with hlt | hle
    · have hmono := arrived_length_mono results (show turn + 1 ≤ stop from hlt)
      omega
    · have hmore := Gives.not_end (hbefore stop hle)
      cases h with
      | failed hfailed => exact absurd hfailed hmore.1
      | ended hended => exact absurd hended hmore.2
      | excess => rfl

theorem BoundedBody.new_error (h : ∃ length ∈ declaredLength, maxBytes.val < length.toNat) :
    new maxBytes declaredLength = .error .bodyTooLarge := by
  obtain ⟨length, rfl, hlength⟩ := h
  exact if_pos (by simpa using hlength)

theorem BoundedBody.new_ok (h : ∀ length ∈ declaredLength, length.toNat ≤ maxBytes) :
    new maxBytes declaredLength = .ok ⟨[], maxBytes, declaredLength, Nat.zero_le _⟩ := by
  refine if_neg ?_
  cases declaredLength with
  | none => simp
  | some length => simpa using h length rfl

/-- What is read is exactly the complete body, and the body is too large exactly when it is over
its limit. -/
theorem readBody_spec
    (hwithin : WithinRequests results 0 (readBody maxBytes declaredLength results).1) :
    (∀ body, (readBody maxBytes declaredLength results).2 = .ok body ↔
      Complete maxBytes declaredLength results body) ∧
    ((readBody maxBytes declaredLength results).2 = .error .bodyTooLarge ↔
      Excessive maxBytes declaredLength results) := by
  unfold readBody at hwithin ⊢
  by_cases hdeclared : ∃ length ∈ declaredLength, maxBytes.val < length.toNat
  · rw [BoundedBody.new_error hdeclared]
    refine ⟨fun body => ⟨fun h => (by cases h), ?_⟩, fun _ => .inl hdeclared, fun _ => rfl⟩
    rintro ⟨hfits, _⟩
    obtain ⟨length, hlength, hover⟩ := hdeclared
    exact absurd (hfits length hlength) (Nat.not_le_of_lt hover)
  · have hfits : ∀ length ∈ declaredLength, length.toNat ≤ maxBytes := by
      intro length hlength
      by_contra hover
      exact hdeclared ⟨length, hlength, Nat.lt_of_not_le hover⟩
    rw [BoundedBody.new_ok hfits] at hwithin ⊢
    dsimp only at hwithin ⊢
    obtain ⟨stop, _, hgives, hstop, hstops⟩ := readLoop_stops results 0 _ rfl hwithin
    replace hgives : ∀ place < stop, (results place).Gives := fun place => hgives place (by omega)
    have hok := hstops.ok_iff hgives hstop
    have hexcess := hstops.excess_iff hgives hstop
    cases hloop : (readLoop results 0 ⟨[], maxBytes, declaredLength, Nat.zero_le _⟩).2 with
    | error =>
      rw [hloop] at hok hexcess
      constructor
      · intro body
        refine ⟨fun h => (by cases h), ?_⟩
        rintro ⟨_, last, hbefore, hended, hbody, hlimit, _⟩
        have hread := (hok body).mpr ⟨last, hbefore, hended, hbody, hlimit⟩
        cases hread
      · refine ⟨fun h => .inr (hexcess.mp ?_), ?_⟩
        · cases h
          rfl
        · rintro (hover | hover)
          · exact absurd hover hdeclared
          · have hread := hexcess.mpr hover
            cases hread
            rfl
    | ok last =>
      rw [hloop] at hok hexcess
      have hlast := readLoop_declared hloop
      constructor
      · intro body
        show last.finish = .ok body ↔ _
        rw [finish_ok_iff, hlast]
        constructor
        · rintro ⟨rfl, hlength⟩
          obtain ⟨turn, hbefore, hended, hbody, hlimit⟩ := (hok last.bytes).mp rfl
          exact ⟨hfits, turn, hbefore, hended, hbody, hlimit, hlength⟩
        · rintro ⟨_, turn, hbefore, hended, hbody, hlimit, hlength⟩
          have hread := (hok body).mpr ⟨turn, hbefore, hended, hbody, hlimit⟩
          cases hread
          exact ⟨rfl, hlength⟩
      · constructor
        · intro h
          change last.finish = _ at h
          unfold BoundedBody.finish at h
          split at h <;> cases h
        · rintro (hover | hover)
          · exact absurd hover hdeclared
          · have hread := hexcess.mpr hover
            cases hread

end Outcomes

end Nexus
