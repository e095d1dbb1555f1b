import Nexus.Md5Stream

namespace Nexus

namespace Md5

open BlockFold Rfc1321

/-- The registers in the order of an operation, as the rotating loop holds them. -/
def view (registers : Registers) : Order → Registers
  | .abcd => registers
  | .dabc => ⟨registers.d, registers.a, registers.b, registers.c⟩
  | .cdab => ⟨registers.c, registers.d, registers.a, registers.b⟩
  | .bcda => ⟨registers.b, registers.c, registers.d, registers.a⟩

def order (index : Nat) : Order :=
  match index % 4 with
  | 0 => .abcd
  | 1 => .dabc
  | 2 => .cdab
  | _ => .bcda

def round (index : Nat) : Round :=
  if index < 16 then .f else if index < 32 then .g else if index < 48 then .h else .i

def operation (index : Nat) : Operation where
  round := round index
  order := order index
  k := (mixed index 0 0 0).2
  s := shift[index]?.getD 0
  i := index + 1

theorem operations_eq : operations = (List.range 64).map operation := by decide

theorem order_succ (index : Nat) : order (index + 1) = match order index with
    | .abcd => .dabc
    | .dabc => .cdab
    | .cdab => .bcda
    | .bcda => .abcd := by
  unfold order
  have hlt : index % 4 < 4 := Nat.mod_lt _ (by decide)
  have hsucc : (index + 1) % 4 = (index % 4 + 1) % 4 := Nat.add_mod index 1 4
  rw [hsucc]
  generalize index % 4 = n at hlt ⊢
  match n, hlt with
  | 0, _ => rfl
  | 1, _ => rfl
  | 2, _ => rfl
  | 3, _ => rfl

theorem mixed_eq (index : Nat) (b c d : UInt32) :
    mixed index b c d = ((round index).mix b c d, (operation index).k) := by
  unfold operation round mixed
  dsimp only
  split
  · rfl
  split
  · refine Prod.ext ?_ rfl
    change (d &&& b) ||| (~~~d &&& c) = (b &&& d) ||| (c &&& ~~~d)
    rw [UInt32.and_comm d b, UInt32.and_comm (~~~d) c]
  split
  · rfl
  · rfl

theorem operation_k_lt (index : Nat) : (operation index).k < 16 := by
  change (mixed index 0 0 0).2 < 16
  unfold mixed
  split
  · assumption
  split
  · exact Nat.mod_lt _ (by decide)
  split
  · exact Nat.mod_lt _ (by decide)
  · exact Nat.mod_lt _ (by decide)

variable {block : List UInt8}

theorem leWords_get? {j : Nat} (h : 4 * j + 4 ≤ block.length) :
    (leWords block)[j]? = some (word block j) := by
  induction j generalizing block with
  | zero =>
    match block with
    | _ :: _ :: _ :: _ :: _ => rfl
  | succ j ih =>
    match block with
    | first :: second :: third :: fourth :: rest =>
      have hrest : 4 * j + 4 ≤ rest.length := by
        simp only [List.length_cons] at h
        omega
      rw [leWords, List.getElem?_cons_succ, ih hrest]
      unfold word
      rw [Nat.mul_succ, List.drop_succ_cons]
      rfl

theorem turn_eq (hblock : block.length = 64) {index : Nat} (hindex : index < 64)
    (registers : Registers) :
    turn (leWords block) (view registers (order index)) index =
      some (view ((operation index).run (word block) registers) (order (index + 1))) := by
  have hconstant : constant[index]? = some (sine (index + 1)) := by
    change constant[index]? = some (constant[index]?.getD 0)
    have hlength : index < constant.length := hindex
    rw [List.getElem?_eq_getElem hlength]
    rfl
  have hshift : shift[index]? = some (operation index).s := by
    change shift[index]? = some (shift[index]?.getD 0)
    have hlength : index < shift.length := hindex
    rw [List.getElem?_eq_getElem hlength]
    rfl
  have hword : (leWords block)[(operation index).k]? = some (word block (operation index).k) := by
    refine leWords_get? ?_
    have hk := operation_k_lt index
    omega
  -- the code adds the constant before the word, the document after it
  have hvalue : ∀ a b c d, b + rotateLeft
      (a + (round index).mix b c d + sine (index + 1) + word block (operation index).k)
        (operation index).s = (operation index).value (word block) a b c d := by
    intro a b c d
    unfold Operation.value
    rw [UInt32.add_assoc, UInt32.add_comm (sine (index + 1)), ← UInt32.add_assoc]
    rfl
  unfold turn
  dsimp only
  rw [mixed_eq]
  dsimp only
  rw [hconstant, hword, hshift, order_succ]
  obtain ⟨a, b, c, d⟩ := registers
  have horder : (operation index).order = order index := rfl
  unfold Operation.run
  rw [horder]
  rcases order index with _ | _ | _ | _
  · exact congrArg (fun value => some (⟨d, value, b, c⟩ : Registers)) (hvalue a b c d)
  · exact congrArg (fun value => some (⟨c, value, a, b⟩ : Registers)) (hvalue d a b c)
  · exact congrArg (fun value => some (⟨b, value, d, a⟩ : Registers)) (hvalue c d a b)
  · exact congrArg (fun value => some (⟨a, value, c, d⟩ : Registers)) (hvalue b c d a)

theorem foldlM_turn (hblock : block.length = 64) {count : Nat} (hcount : count ≤ 64)
    (registers : Registers) :
    (List.range count).foldlM (turn (leWords block)) registers =
      some (view (((List.range count).map operation).foldl (Operation.run (word block)) registers)
        (order count)) := by
  induction count with
  | zero => rfl
  | succ count ih =>
    rw [List.range_succ, List.foldlM_append, ih (Nat.le_of_succ_le hcount), List.map_append,
      List.foldl_append]
    change (turn (leWords block) _ count >>= pure) = _
    rw [turn_eq hblock hcount]
    rfl

theorem compress_eq (state : Registers) (block : Bytes 64) :
    compress state block = some (processBlock state block.toList) := by
  have hfinal := foldlM_turn block.size (le_refl 64) state
  have horder : order 64 = .abcd := rfl
  rw [horder, ← operations_eq] at hfinal
  unfold compress processBlock
  rw [hfinal]
  generalize operations.foldl (Operation.run (word block.toList)) state = final
  rfl

theorem ofList?_of_length {n : Nat} {bytes : List UInt8} (h : bytes.length = n) :
    Bytes.ofList? bytes = some ⟨bytes, h⟩ := dif_pos h

theorem sliceTo_of_le {slice : List UInt8} {stop : Nat} (h : stop ≤ slice.length) :
    sliceTo slice stop = some (slice.take stop) := if_pos h

theorem sliceFrom_of_le {slice : List UInt8} {start : Nat} (h : start ≤ slice.length) :
    sliceFrom slice start = some (slice.drop start) := if_pos h

theorem copyFromSlice_eq {n : Nat} (array : Bytes n) (start stop : Nat) (source : List UInt8)
    (h : start ≤ stop ∧ stop ≤ n ∧ source.length = stop - start) :
    ∃ copied, array.copyFromSlice start stop source = some copied ∧
      copied.toList = array.toList.take start ++ source ++ array.toList.drop stop :=
  ⟨_, dif_pos h, rfl⟩

theorem compressBlocks_eq (state : Registers) (input : List UInt8) :
    compressBlocks state input = some (absorb processBlock 64 state input, rest 64 input) := by
  induction hlength : input.length using Nat.strong_induction_on generalizing state input with
  | _ length ih =>
    subst hlength
    rw [compressBlocks]
    split
    next hfull =>
      have htake : (input.take 64).length = 64 := by
        rw [List.length_take]
        exact min_eq_left hfull
      have hlt : (input.drop 64).length < input.length := by
        rw [List.length_drop]
        omega
      rw [ofList?_of_length htake]
      change (compress state ⟨input.take 64, htake⟩ >>= fun state =>
        compressBlocks state (input.drop 64)) = _
      rw [compress_eq]
      change compressBlocks (processBlock state (input.take 64)) (input.drop 64) = _
      rw [ih _ hlt _ _ rfl, absorb_block (by decide) hfull, rest_block (by decide) hfull]
    next hshort =>
      have hlt : input.length < 64 := Nat.lt_of_not_le hshort
      rw [absorb_of_lt hlt, rest_of_lt hlt]

structure Absorbed (message : List UInt8) (md5 : Md5) : Prop where
  state : md5.state = absorb processBlock 64 initial message
  byteLen : md5.byteLen = UInt64.ofNat message.length
  buffered : md5.buffered = (rest 64 message).length
  held : md5.buffer.toList.take md5.buffered = rest 64 message

theorem absorbed_new : Absorbed [] new := ⟨rfl, rfl, rfl, rfl⟩

variable {message : List UInt8} {md5 : Md5}

theorem updateBlocks_absorbed {input : List UInt8}
    (hstate : absorb processBlock 64 md5.state input = absorb processBlock 64 initial message)
    (hrest : rest 64 input = rest 64 message) (hlen : md5.byteLen = UInt64.ofNat message.length) :
    ∃ next, md5.updateBlocks input = some next ∧ Absorbed message next := by
  have hlt : (rest 64 message).length < 64 := length_rest_lt (by decide) message
  obtain ⟨buffer, hcopy, hbytes⟩ := copyFromSlice_eq md5.buffer 0
    (rest 64 message).length (rest 64 message) ⟨Nat.zero_le _, Nat.le_of_lt hlt, rfl⟩
  refine ⟨{ md5 with
    state := absorb processBlock 64 initial message
    buffer
    buffered := (rest 64 message).length }, ?_, rfl, hlen, rfl, ?_⟩
  · unfold updateBlocks
    rw [compressBlocks_eq, hstate, hrest]
    change (md5.buffer.copyFromSlice 0 (rest 64 message).length (rest 64 message) >>=
      fun _ => _) = _
    rw [hcopy]
    rfl
  · dsimp only
    rw [hbytes, List.take_zero, List.nil_append]
    exact List.take_left

variable {held : List UInt8}

theorem updateBuffered_absorbed {input : List UInt8}
    (hstate : absorb processBlock 64 md5.state (held ++ input) =
      absorb processBlock 64 initial message) (hrest : rest 64 (held ++ input) = rest 64 message)
    (hlen : md5.byteLen = UInt64.ofNat message.length) (hbuffered : md5.buffered = held.length)
    (hheld : md5.buffer.toList.take md5.buffered = held) (hlt : held.length < 64) :
    ∃ next, md5.updateBuffered input = some next ∧ Absorbed message next := by
  obtain ⟨count, hcount⟩ : ∃ count, count = min (64 - held.length) input.length := ⟨_, rfl⟩
  have hle : count ≤ input.length := hcount ▸ min_le_right _ _
  have hfits : held.length + count ≤ 64 := by omega
  obtain ⟨buffer, hcopy, hbytes⟩ := copyFromSlice_eq md5.buffer held.length
    (held.length + count) (input.take count)
    ⟨Nat.le_add_right _ _, hfits, by rw [List.length_take]; omega⟩
  rw [hbuffered] at hheld
  rw [hheld] at hbytes
  unfold updateBuffered
  rw [hbuffered, ← hcount]
  dsimp only
  rw [sliceTo_of_le hle]
  change ∃ next, (md5.buffer.copyFromSlice held.length (held.length + count) (input.take count) >>=
    fun _ => _) = some next ∧ _
  rw [hcopy, sliceFrom_of_le hle]
  change ∃ next, (if held.length + count < 64 then _ else _) = some next ∧ _
  by_cases hshort : held.length + count < 64
  · -- the whole input went into the buffer
    have hall : count = input.length := by omega
    have htotal : (held ++ input).length < 64 := by
      rw [List.length_append, ← hall]
      exact hshort
    rw [absorb_of_lt htotal] at hstate
    rw [rest_of_lt htotal] at hrest
    rw [if_pos hshort]
    refine ⟨_, rfl, hstate, hlen, ?_, ?_⟩
    · change held.length + count = (rest 64 message).length
      rw [← hrest, List.length_append, hall]
    · change buffer.toList.take (held.length + count) = rest 64 message
      rw [hbytes, ← hrest, hall, List.take_length]
      exact List.take_left' List.length_append
  · have hfull : held.length + count = 64 := by omega
    have hblock : buffer.toList = (held ++ input).take 64 := by
      have hend : md5.buffer.toList.drop (held.length + count) = [] := by
        rw [hfull]
        exact List.drop_eq_nil_of_le (le_of_eq md5.buffer.size)
      rw [hbytes, hend, List.append_nil, ← hfull, List.take_length_add_append]
    have hdrop : (held ++ input).drop 64 = input.drop count := by
      rw [← hfull, List.drop_length_add_append]
    have hlong : 64 ≤ (held ++ input).length := by
      rw [List.length_append]
      omega
    rw [absorb_block (by decide) hlong, hdrop, ← hblock] at hstate
    rw [rest_block (by decide) hlong, hdrop] at hrest
    rw [if_neg hshort, if_pos hfull]
    change ∃ next, (compress md5.state buffer >>= fun _ => _) = some next ∧ _
    rw [compress_eq]
    exact updateBlocks_absorbed hstate hrest hlen

theorem update_absorbed (h : Absorbed message md5) (input : List UInt8) :
    ∃ next, md5.update input = some next ∧ Absorbed (message ++ input) next := by
  have hlen : md5.byteLen + UInt64.ofNat input.length =
      UInt64.ofNat (message ++ input).length := by
    rw [h.byteLen, List.length_append, UInt64.ofNat_add]
  have hstate := absorb_append processBlock 64 (by decide) initial message input
  have hrest := rest_append 64 (by decide) message input
  have hlt : (rest 64 message).length < 64 := length_rest_lt (by decide) message
  rw [← h.state] at hstate
  unfold update
  dsimp only
  by_cases hempty : md5.buffered = 0
  · rw [if_neg (not_not.mpr hempty)]
    have hnone : rest 64 message = [] := by
      rw [← List.length_eq_zero_iff, ← h.buffered]
      exact hempty
    rw [hnone, List.nil_append] at hstate hrest
    exact updateBlocks_absorbed hstate.symm hrest.symm hlen
  · rw [if_pos hempty]
    exact updateBuffered_absorbed hstate.symm hrest.symm hlen h.buffered h.held hlt

theorem foldlM_update_absorbed (h : Absorbed message md5) (chunks : List (List UInt8)) :
    ∃ next, chunks.foldlM update md5 = some next ∧ Absorbed (message ++ chunks.flatten) next := by
  induction chunks generalizing message md5 with
  | nil =>
    rw [List.flatten_nil, List.append_nil]
    exact ⟨md5, rfl, h⟩
  | cons chunk _ ih =>
    obtain ⟨next, hupdate, hnext⟩ := update_absorbed h chunk
    obtain ⟨final, hfold, hfinal⟩ := ih hnext
    rw [List.append_assoc] at hfinal
    refine ⟨final, ?_, hfinal⟩
    rw [List.foldlM_cons, hupdate]
    exact hfold

/-- One block, or two where the length has no room behind the padding byte. -/
def tailLen (held : Nat) : Nat := if held < 56 then 64 else 128

theorem tailLen_eq {held : Nat} (h : held < 64) :
    tailLen held = held + 1 + (119 - held) % 64 + 8 := by
  unfold tailLen
  split
  · omega
  · omega

theorem tailLen_le (held : Nat) : tailLen held ≤ 128 := by
  unfold tailLen
  split
  · decide
  · decide

theorem set_padding_byte (held : List UInt8) (count : Nat) :
    (held ++ List.replicate (count + 1) 0).set held.length 0x80 =
      held ++ 0x80 :: List.replicate count 0 := by
  rw [List.set_append_right _ _ (le_refl _), Nat.sub_self]
  rfl

theorem padding_eq (h : held = rest 64 message) :
    padding message.length = 0x80 :: List.replicate ((119 - held.length) % 64) 0 := by
  unfold padding
  rw [h, length_rest]

theorem bitLen_toNat (length : Nat) :
    (UInt64.ofNat length * 8).toNat = 8 * length % 2 ^ 64 := by
  rw [UInt64.toNat_mul, UInt64.toNat_ofNat', Nat.mul_comm 8]
  exact Nat.mod_mul_mod length 8 (2 ^ 64)

theorem tail_bytes {length : List UInt8} (hlt : held.length < 64) (hlength : length.length = 8) :
    ∃ copied marked tail, (Bytes.zero 128).copyFromSlice 0 held.length held = some copied ∧
      copied.set? held.length 0x80 = some marked ∧
      marked.copyFromSlice (tailLen held.length - 8) (tailLen held.length) length = some tail ∧
      tail.toList.take (tailLen held.length) =
        held ++ 0x80 :: List.replicate ((119 - held.length) % 64) 0 ++ length := by
  have htailLen := tailLen_eq hlt
  have htail := tailLen_le held.length
  obtain ⟨copied, hcopy, hcopied⟩ := copyFromSlice_eq (.zero 128) 0 held.length held
    ⟨Nat.zero_le _, by omega, rfl⟩
  have hmarked : copied.toList.set held.length 0x80 =
      held ++ 0x80 :: List.replicate (127 - held.length) 0 := by
    have hzeros : 128 - held.length = 127 - held.length + 1 := by omega
    rw [hcopied, List.take_zero, List.nil_append]
    change (held ++ (List.replicate 128 0).drop held.length).set _ _ = _
    rw [List.drop_replicate, hzeros, set_padding_byte]
  obtain ⟨marked, hset, hbytes⟩ : ∃ marked, copied.set? held.length 0x80 = some marked ∧
      marked.toList = held ++ 0x80 :: List.replicate (127 - held.length) 0 :=
    ⟨_, if_pos (by omega), hmarked⟩
  obtain ⟨tail, hput, htailBytes⟩ := copyFromSlice_eq marked (tailLen held.length - 8)
    (tailLen held.length) length ⟨by omega, htail, by omega⟩
  have hfront : marked.toList.take (tailLen held.length - 8) =
      held ++ 0x80 :: List.replicate ((119 - held.length) % 64) 0 := by
    have hcount : tailLen held.length - 8 = held.length + ((119 - held.length) % 64 + 1) := by omega
    have hzeros : min ((119 - held.length) % 64) (127 - held.length) =
        (119 - held.length) % 64 := by omega
    rw [hbytes, hcount, List.take_length_add_append, List.take_succ_cons, List.take_replicate,
      hzeros]
  refine ⟨copied, marked, tail, hcopy, hset, hput, ?_⟩
  have hend : (marked.toList.take (tailLen held.length - 8) ++ length).length =
      tailLen held.length := by
    rw [List.length_append, List.length_take, marked.size, hlength]
    omega
  rw [htailBytes, List.take_left' hend, hfront]

theorem finalize_absorbed (h : Absorbed message md5) :
    ∃ bytes, md5.finalize = some bytes ∧ bytes.toList = digest message := by
  obtain ⟨held, hrest⟩ : ∃ held, held = rest 64 message := ⟨_, rfl⟩
  have hlt : held.length < 64 := hrest ▸ length_rest_lt (by decide) message
  have hbuffered : md5.buffered = held.length := hrest ▸ h.buffered
  have hheld : md5.buffer.toList.take held.length = held := by
    rw [hrest, ← h.buffered]
    exact h.held
  have hbuffer : held.length ≤ md5.buffer.toList.length := by
    rw [md5.buffer.size]
    exact Nat.le_of_lt hlt
  have hlength : (leBytes 8 (md5.byteLen * 8).toNat).length = 8 := by
    unfold leBytes
    rw [List.length_map, List.length_range]
  obtain ⟨copied, marked, tail, hcopy, hset, hput, hbody⟩ := tail_bytes hlt hlength
  have hslice : tailLen held.length ≤ tail.toList.length := by
    rw [tail.size]
    exact tailLen_le held.length
  have hfinal : absorb processBlock 64 md5.state (tail.toList.take (tailLen held.length)) =
      absorb processBlock 64 initial (padded message) := by
    unfold padded
    rw [hbody, h.state, h.byteLen, bitLen_toNat, List.append_assoc, List.append_assoc,
      absorb_append processBlock 64 (by decide) initial message, padding_eq hrest, hrest]
  have houtput : (output (absorb processBlock 64 initial (padded message))).length = 16 := by
    unfold output leBytes
    simp only [List.length_append, List.length_map, List.length_range]
  refine ⟨⟨_, houtput⟩, ?_, rfl⟩
  unfold finalize
  dsimp only
  rw [hbuffered, sliceTo_of_le hbuffer, hheld]
  change ((Bytes.zero 128).copyFromSlice 0 held.length held >>= fun _ => _) = _
  rw [hcopy]
  change (copied.set? held.length 0x80 >>= fun _ => _) = _
  rw [hset]
  change (marked.copyFromSlice (tailLen held.length - 8) (tailLen held.length) _ >>= fun _ => _) = _
  rw [hput]
  change (sliceTo tail.toList (tailLen held.length) >>= fun _ => _) = _
  rw [sliceTo_of_le hslice]
  change ((compressBlocks md5.state (tail.toList.take (tailLen held.length)) >>= fun _ => _) >>=
    fun _ => _) = _
  rw [compressBlocks_eq, hfinal]
  exact ofList?_of_length houtput

/-- However the bytes are split into chunks, the stream gives the digest of all of them. -/
theorem stream_digest (chunks : List (List UInt8)) :
    ∃ md5 output, chunks.foldlM update new = some md5 ∧ md5.finalize = some output ∧
      output.toList = digest chunks.flatten := by
  obtain ⟨md5, hfold, habsorbed⟩ := foldlM_update_absorbed absorbed_new chunks
  obtain ⟨output, hfinalize, houtput⟩ := finalize_absorbed habsorbed
  exact ⟨md5, output, hfold, hfinalize, houtput⟩

end Md5

end Nexus
