import Nexus.BoundedBody
import Nexus.HttpCacheCalls
import Nexus.RequestParts

namespace Nexus

open Fallible

def validateStatus (status : UInt32) : Except TransportError UInt16 :=
  if 2 ^ 16 ≤ status.toNat then .error .invalidResponse
  else if ¬(100 ≤ status.toNat ∧ status.toNat ≤ 599) then .error .invalidResponse
  else .ok status.toUInt16

/-- What the query of the status code answers; `none` is a failure or a status of another size. -/
def queryStatus : Option UInt32 → Except TransportError UInt16
  | none => .error .invalidResponse
  | some status => validateStatus status

/-- What the query of the declared length answers. A written length counts its bytes, of which the
buffer has two in each unit. -/
inductive LengthQuery where
  | headerNotFound
  | insufficientBuffer
  | failed
  | written (bytes : UInt32) (buffer : List UInt16)

def contentLengthUnits : Nat := 32

def queryContentLength : LengthQuery → Except TransportError (Option UInt64)
  | .headerNotFound => .ok none
  | .insufficientBuffer => .error .invalidResponse
  | .failed => .error .requestFailed
  | .written bytes buffer =>
    if bytes.toNat = 0 ∨ bytes.toNat % 2 ≠ 0 ∨ 2 * contentLengthUnits < bytes.toNat then
      .error .invalidResponse
    else (parseContentLengthUtf16 (buffer.take (bytes.toNat / 2))).map some

structure Exchange where
  /-- Whether the host and the target are encoded, the request is sent and a response received. -/
  sent : Bool
  status : Option UInt32
  contentLength : LengthQuery
  reads : Nat → ReadResult

/-- `execute`, from the encoding of the host on. -/
def execute (exchange : Exchange) (maxBodyBytes : Fin (2 ^ 64)) :
    Except TransportError TransportResponse := do
  if exchange.sent = false then .error .requestFailed
  else
    let statusCode ← queryStatus exchange.status
    let contentLength ← queryContentLength exchange.contentLength
    let body ← (readBody maxBodyBytes contentLength exchange.reads).2
    return ⟨statusCode, ⟨body.toArray⟩, contentLength⟩

def winHttp {τ : Type} (answer : ParsedRequest → τ → Exchange × τ) : Transport τ :=
  fun request maxBytes state =>
    match ParsedRequest.fromRequest request with
    | some (.ok parsed) =>
      (execute (answer parsed state).1 (Fin.ofNat (2 ^ 64) maxBytes), (answer parsed state).2)
    | some (.error error) => (.error error, state)
    -- The parts are found without a panic.
    | none => (.error .requestFailed, state)

structure Honest (exchange : Exchange) (maxBytes : Nat) (body : ByteArray) : Prop where
  bounded : body.size ≤ maxBytes
  declared : ∀ length, queryContentLength exchange.contentLength = .ok (some length) →
    length.toNat = body.size

def HonestReply {τ : Type} (answer : ParsedRequest → τ → Exchange × τ) (request : HttpRequest)
    (state : τ) (maxBytes : Nat) (body : ByteArray) : Prop :=
  ∃ parsed, ParsedRequest.fromRequest request = some (.ok parsed) ∧
    Honest (answer parsed state).1 maxBytes body

variable {raw : TransportResponse}

theorem execute_ok {exchange : Exchange} {maxBodyBytes : Fin (2 ^ 64)}
    (h : execute exchange maxBodyBytes = .ok raw) :
    queryContentLength exchange.contentLength = .ok raw.contentLength := by
  unfold execute at h
  split at h
  next => cases h
  next =>
    obtain ⟨_, _, h⟩ := except_bind_ok h
    obtain ⟨contentLength, hlength, h⟩ := except_bind_ok h
    obtain ⟨_, _, h⟩ := except_bind_ok h
    cases h
    exact hlength

variable {maxBytes : Nat}

theorem winHttp_ok {τ : Type} {answer : ParsedRequest → τ → Exchange × τ} {request : HttpRequest}
    {state state' : τ} (h : winHttp answer request maxBytes state = (.ok raw, state')) :
    ∃ parsed, ParsedRequest.fromRequest request = some (.ok parsed) ∧
      queryContentLength (answer parsed state).1.contentLength = .ok raw.contentLength := by
  unfold winHttp at h
  split at h
  next parsed hparsed => exact ⟨parsed, hparsed, execute_ok (congrArg Prod.fst h)⟩
  next => cases h
  next => cases h

theorem TransportResponse.declared_of_matched (hsize : raw.body.size < 2 ^ 64)
    (h : raw.mismatched = false) :
    ∀ length, raw.contentLength = some length → length.toNat = raw.body.size := by
  intro length hlength
  unfold mismatched usizeToU64 at h
  rw [hlength, if_pos hsize] at h
  simpa using h

theorem winHttp_honest {τ : Type} {answer : ParsedRequest → τ → Exchange × τ}
    {request : HttpRequest} {maxBytes : Fin (2 ^ 64)} {state state' : τ}
    (h : winHttp answer request maxBytes state = (.ok raw, state'))
    (hsize : ¬maxBytes.val < raw.body.size) (hmatched : raw.mismatched = false) :
    HonestReply answer request state maxBytes raw.body := by
  obtain ⟨parsed, hparsed, hlength⟩ := winHttp_ok h
  have hbound := maxBytes.isLt
  refine ⟨parsed, hparsed, Nat.le_of_not_lt hsize, fun length hdeclared => ?_⟩
  rw [hlength] at hdeclared
  exact raw.declared_of_matched (by omega) hmatched length (Except.ok.inj hdeclared)

theorem validateResponse_ok (h : validateResponse raw maxBytes = .ok ()) :
    ¬maxBytes < raw.body.size ∧ raw.mismatched = false := by
  unfold validateResponse at h
  split at h
  next => cases h
  next =>
    split at h
    next => cases h
    next hsize =>
      split at h
      next => cases h
      next hmatched => exact ⟨hsize, by simpa using hmatched⟩

theorem validateDownload_ok (h : HttpClient.validateDownload raw maxBytes = .ok ()) :
    ¬maxBytes < raw.body.size ∧ raw.mismatched = false := by
  unfold HttpClient.validateDownload at h
  split at h
  next => cases h
  next hsize =>
    split at h
    next => cases h
    next =>
      split at h
      next => cases h
      next =>
        split at h
        next => cases h
        next hmatched => exact ⟨hsize, by simpa using hmatched⟩

def recordingStore {σ : Type} (store : CacheStore σ) : CacheStore (List ByteArray × σ) where
  load key maxBytes :=
    zoom Prod.snd (fun backing state => (state.1, backing)) (store.load key maxBytes)
  storeAtomic key encoded := fun (stored, backing) =>
    ((store.storeAtomic key encoded backing).1, stored ++ [encoded],
      (store.storeAtomic key encoded backing).2)
  remove key := zoom Prod.snd (fun backing state => (state.1, backing)) (store.remove key)
  clear := zoom Prod.snd (fun backing state => (state.1, backing)) store.clear

def recordingWriter {φ : Type} (writeAtomic : ByteArray → Fallible φ FileSystemError Unit)
    (bytes : ByteArray) : Fallible (List ByteArray × φ) FileSystemError Unit :=
  fun (written, files) =>
    ((writeAtomic bytes files).1, written ++ [bytes], (writeAtomic bytes files).2)

/-- A step of a cache that adds records and stored texts with honest bodies only. -/
structure Adds {σ : Type} (codec : CacheCodec) (honest : ByteArray → Prop)
    (before after : HttpCache (List ByteArray × σ)) : Prop where
  entries : ∀ query record, after.entries query = some record →
    before.entries query = some record ∨ honest record.content.toUTF8
  stored : ∃ added, after.store.1 = before.store.1 ++ added ∧ ∀ encoded ∈ added,
    ∃ record, codec.encode record = some encoded ∧ honest record.content.toUTF8

section Caches

variable {σ : Type} {codec : CacheCodec} {store : CacheStore σ} {honest : ByteArray → Prop}

theorem Adds.trans {first second third : HttpCache (List ByteArray × σ)}
    (h : Adds codec honest first second) (h' : Adds codec honest second third) :
    Adds codec honest first third := by
  constructor
  · intro query record hrecord
    rcases h'.entries query record hrecord with hbefore | hhonest
    · exact h.entries query record hbefore
    · exact .inr hhonest
  · obtain ⟨added, hadded, hencoded⟩ := h.stored
    obtain ⟨added', hadded', hencoded'⟩ := h'.stored
    refine ⟨added ++ added', by rw [hadded', hadded, List.append_assoc], fun encoded hmem => ?_⟩
    rcases List.mem_append.mp hmem with hmem | hmem
    · exact hencoded encoded hmem
    · exact hencoded' encoded hmem

theorem Adds.of_less {before after : HttpCache (List ByteArray × σ)}
    (hentries : ∀ query record, after.entries query = some record →
      before.entries query = some record) (hstored : after.store.1 = before.store.1) :
    Adds codec honest before after :=
  ⟨fun query record h => .inl (hentries query record h), [], by rw [hstored, List.append_nil],
    by simp⟩

theorem Adds.forget (cache : HttpCache (List ByteArray × σ)) (query : String) :
    Adds codec honest cache (cache.forget query) := by
  refine .of_less (fun other record h => ?_) rfl
  by_cases hother : other = query
  · subst hother
    simp [HttpCache.forget] at h
  · simpa [HttpCache.forget, Function.update_of_ne hother] using h

theorem Adds.discard (cache : HttpCache (List ByteArray × σ)) (query : String) :
    Adds codec honest cache (HttpCache.discard codec (recordingStore store) query cache).2 := by
  have hremove : Adds codec honest cache (HttpCache.onStore ((recordingStore store).remove
      (codec.cacheKeyForQuery query)) cache).2 := .of_less (fun _ _ h => h) rfl
  unfold HttpCache.discard
  rw [bind_apply]
  split
  next heq =>
    rw [heq] at hremove
    exact hremove
  next heq =>
    rw [heq] at hremove
    exact hremove

theorem Adds.lookup {cache : HttpCache (List ByteArray × σ)} {query : String} {now : Int64}
    {policy : CachePolicy} (hmiss : ∀ response,
      (cache.lookup codec (recordingStore store) query now policy).1 ≠ .ok (some response)) :
    Adds codec honest cache (cache.lookup codec (recordingStore store) query now policy).2 := by
  unfold HttpCache.lookup at hmiss ⊢
  dsimp only at hmiss ⊢
  split
  next => exact (Adds.forget cache query).trans (.discard _ query)
  next hzero =>
    rw [if_neg hzero] at hmiss
    split
    next record hrecord =>
      rw [hrecord] at hmiss
      dsimp only at hmiss
      split
      next hfresh =>
        rw [if_pos hfresh] at hmiss
        exact absurd rfl (hmiss _)
      next => exact (Adds.forget cache query).trans (.discard _ query)
    next hnone =>
      rw [hnone] at hmiss
      dsimp only at hmiss
      have hload : Adds codec honest cache (HttpCache.onStore ((recordingStore store).load
          (codec.cacheKeyForQuery query) cache.maxRecordBytes) cache).2 :=
        .of_less (fun _ _ h => h) rfl
      split
      next heq =>
        rw [heq] at hload
        exact hload
      next heq =>
        rw [heq] at hload
        exact hload
      next next heq =>
        rw [heq] at hload hmiss
        dsimp only at hmiss
        split
        next => exact hload.trans (.discard _ query)
        next hrecord =>
          rw [hrecord] at hmiss
          dsimp only at hmiss
          split
          next hfresh =>
            rw [if_pos hfresh] at hmiss
            exact absurd rfl (hmiss _)
          next => exact hload.trans (.discard _ query)

theorem Adds.storeResponse (cache : HttpCache (List ByteArray × σ)) (query : String)
    {response : HttpResponse} (h : honest response.body) :
    Adds codec honest cache
      (cache.storeResponse codec (recordingStore store) query response).2 := by
  unfold HttpCache.storeResponse
  dsimp only
  split
  next => exact .of_less (fun _ _ h => h) rfl
  next =>
    split
    next => exact .of_less (fun _ _ h => h) rfl
    next content hcontent =>
      have hhonest : honest content.toUTF8 := by
        rw [HttpCache.toUTF8_of_fromUTF8? hcontent]
        exact h
      split
      next => exact .of_less (fun _ _ h => h) rfl
      next encoded hencoded =>
        split
        next => exact .of_less (fun _ _ h => h) rfl
        next =>
          have hstore : Adds codec honest cache (HttpCache.onStore
              ((recordingStore store).storeAtomic (codec.cacheKeyForQuery query) encoded) cache).2 :=
            ⟨fun _ _ h => .inl h, [encoded], rfl, fun other hmem => by
              rw [List.mem_singleton.mp hmem]
              exact ⟨_, hencoded, hhonest⟩⟩
          split
          next heq =>
            rw [heq] at hstore
            exact hstore
          next heq =>
            rw [heq] at hstore
            refine hstore.trans
              ⟨fun other record hrecord => ?_, [], by simp [HttpCache.insert], by simp⟩
            by_cases hother : other = query
            · subst hother
              simp only [HttpCache.insert, Function.update_self, Option.some_inj] at hrecord
              rw [← hrecord]
              exact .inr hhonest
            · simp only [HttpCache.insert, Function.update_of_ne hother] at hrecord
              exact .inl hrecord

end Caches

namespace HttpClient

variable {τ σ φ : Type} {codec : CacheCodec} {store : CacheStore σ} {honest : ByteArray → Prop}

def AddsHonest (codec : CacheCodec) (honest : ByteArray → Prop)
    (before after : HttpClient τ (List ByteArray × σ)) : Prop :=
  match before.cache, after.cache with
  | none, none => True
  | some before, some after => Adds codec honest before after
  | _, _ => False

theorem AddsHonest.lookup {target : Text} {now : Int64} {policy : CachePolicy}
    {client next : HttpClient τ (List ByteArray × σ)}
    (h : client.lookup codec (recordingStore store) target now policy = (none, next)) :
    AddsHonest codec honest client next ∧ next.transport = client.transport ∧
      next.maxResponseBytes = client.maxResponseBytes := by
  unfold HttpClient.lookup at h
  split at h
  next hnone =>
    cases h
    exact ⟨by simp [AddsHonest, hnone], rfl, rfl⟩
  next cache hcache =>
    have hadds := @Adds.lookup σ codec store honest cache (String.ofList target) now policy
    split at h
    next after heq =>
      cases h
      rw [heq] at hadds
      refine ⟨?_, rfl, rfl⟩
      simp only [AddsHonest, hcache]
      exact hadds (by simp)
    next heq =>
      cases h
      rw [heq] at hadds
      refine ⟨?_, rfl, rfl⟩
      simp only [AddsHonest, hcache]
      exact hadds (by simp)

theorem AddsHonest.remember (client : HttpClient τ (List ByteArray × σ)) (target : Text)
    {response : HttpResponse} (h : honest response.body) :
    AddsHonest codec honest client
      (client.remember codec (recordingStore store) target response) := by
  unfold HttpClient.remember
  split
  next hnone => simp [AddsHonest, hnone]
  next cache hcache =>
    have hadds := @Adds.storeResponse σ codec store honest cache (String.ofList target) response h
    split
    next after heq =>
      rw [heq] at hadds
      simpa only [AddsHonest, hcache] using hadds
    next heq =>
      rw [heq] at hadds
      simpa only [AddsHonest, hcache] using hadds

theorem AddsHonest.trans {first second third : HttpClient τ (List ByteArray × σ)}
    (h : AddsHonest codec honest first second) (h' : AddsHonest codec honest second third) :
    AddsHonest codec honest first third := by
  unfold AddsHonest at *
  cases hfirst : first.cache <;> cases hsecond : second.cache <;> cases hthird : third.cache <;>
    simp only [hfirst, hsecond, hthird] at h h' ⊢
  exact h.trans h'

theorem AddsHonest.of_same {before after : HttpClient τ (List ByteArray × σ)}
    (h : after.cache = before.cache) : AddsHonest codec honest before after := by
  unfold AddsHonest
  rw [h]
  cases before.cache with
  | none => trivial
  | some => exact .of_less (fun _ _ hrecord => hrecord) rfl

/-- A body that is not answered from the cache is honest, as is all that the call adds to the
cache and its store. -/
theorem get_honest (answer : ParsedRequest → τ → Exchange × τ) (now : Int64)
    {endpoint parameters : Text} {policy : CachePolicy}
    {client next : HttpClient τ (List ByteArray × σ)} {request : HttpRequest}
    (hrequest : client.request endpoint parameters = .ok request)
    (hmiss : client.lookup codec (recordingStore store) request.target now policy = (none, next)) :
    (∀ response, (get codec (recordingStore store) (winHttp answer) now endpoint parameters policy
        client).1 = .ok response →
      HonestReply answer request client.transport client.maxResponseBytes response.body) ∧
    AddsHonest codec (HonestReply answer request client.transport client.maxResponseBytes) client
      (get codec (recordingStore store) (winHttp answer) now endpoint parameters policy
        client).2 := by
  obtain ⟨hlookup, htransport, hlimit⟩ := @AddsHonest.lookup τ σ codec store
    (HonestReply answer request client.transport client.maxResponseBytes) request.target now policy
    client next hmiss
  unfold get
  rw [hrequest]
  dsimp only
  rw [hmiss]
  dsimp only
  unfold fetch
  split
  next error after hsend =>
    refine ⟨fun response h => (by cases h), hlookup.trans (.of_same ?_)⟩
    exact congrArg (fun outcome => outcome.2.cache) hsend.symm
  next raw after hsend =>
    have hsame : after.cache = next.cache := congrArg (fun outcome => outcome.2.cache) hsend.symm
    have hraw : winHttp answer request next.maxResponseBytes next.transport =
        (.ok raw, after.transport) := by
      have hresult := congrArg Prod.fst hsend
      have hstate := congrArg (fun outcome => outcome.2.transport) hsend
      exact Prod.ext hresult hstate
    split
    next =>
      exact ⟨fun response h => (by cases h), hlookup.trans (.of_same hsame)⟩
    next hvalid =>
      obtain ⟨hsize, hmatched⟩ := validateResponse_ok hvalid
      rw [show after.maxResponseBytes = next.maxResponseBytes from
        congrArg (fun outcome => outcome.2.maxResponseBytes) hsend.symm] at hsize
      have hhonest := winHttp_honest hraw hsize hmatched
      rw [htransport, hlimit] at hhonest
      refine ⟨fun response h => ?_, ?_⟩
      · cases h
        exact hhonest
      · exact (hlookup.trans (.of_same hsame)).trans (.remember _ _ hhonest)

theorem download_honest (answer : ParsedRequest → τ → Exchange × τ)
    (writeAtomic : ByteArray → Fallible φ FileSystemError Unit) {endpoint parameters : Text}
    {maxBytes : Fin (2 ^ 64)} {client : HttpClient τ σ} {request : HttpRequest}
    (hrequest : client.request endpoint parameters = .ok request) (written : List ByteArray)
    (files : φ) :
    ∃ added, (download (winHttp answer) (recordingWriter writeAtomic) endpoint parameters maxBytes
        (client, written, files)).2.2.1 = written ++ added ∧
      (∀ body ∈ added, HonestReply answer request client.transport maxBytes body) ∧
      ∀ bytes, (download (winHttp answer) (recordingWriter writeAtomic) endpoint parameters maxBytes
        (client, written, files)).1 = .ok bytes → ∃ body, added = [body] ∧ bytes = body.size := by
  unfold download
  dsimp only
  split
  next => exact ⟨[], by simp, by simp, fun bytes h => (by cases h)⟩
  next =>
    rw [hrequest]
    dsimp only
    split
    next => exact ⟨[], by simp, by simp, fun bytes h => (by cases h)⟩
    next raw after hsend =>
      have hraw : winHttp answer request maxBytes client.transport =
          (.ok raw, after.transport) := by
        have hresult := congrArg Prod.fst hsend
        have hstate := congrArg (fun outcome => outcome.2.transport) hsend
        exact Prod.ext hresult hstate
      split
      next => exact ⟨[], by simp, by simp, fun bytes h => (by cases h)⟩
      next hvalid =>
        obtain ⟨hsize, hmatched⟩ := validateDownload_ok hvalid
        have hhonest := winHttp_honest hraw hsize hmatched
        refine ⟨[raw.body], ?_, by simpa using hhonest, fun bytes h => ⟨raw.body, rfl, ?_⟩⟩
        · split
          next heq => exact congrArg (fun outcome => outcome.2.1) heq.symm
          next heq => exact congrArg (fun outcome => outcome.2.1) heq.symm
        · split at h
          · cases h
          · cases h
            rfl

end HttpClient

section Bodies

variable {τ σ φ : Type} (codec : CacheCodec) (store : CacheStore σ)
  (answer : ParsedRequest → τ → Exchange × τ)
  (writeAtomic : ByteArray → Fallible φ FileSystemError Unit)

/-- The reads of a body ask for what fits and give exactly the complete body, declared lengths are
decimal numerals, and no call over them returns, caches, stores or writes another body. -/
theorem bodies_are_exact_and_bounded :
    (∀ (maxBytes : Fin (2 ^ 64)) (declaredLength : Option UInt64) (results : Nat → ReadResult),
      (∀ request ∈ (readBody maxBytes declaredLength results).1,
        1 ≤ request ∧ request ≤ readBufferBytes) ∧
      (WithinRequests results 0 (readBody maxBytes declaredLength results).1 →
        (∀ body, (readBody maxBytes declaredLength results).2 = .ok body ↔
          Complete maxBytes declaredLength results body) ∧
        ((readBody maxBytes declaredLength results).2 = .error .bodyTooLarge ↔
          Excessive maxBytes declaredLength results))) ∧
    (∀ (body next : BoundedBody) (chunk : List UInt8), body.push chunk = .ok next →
      next.bytes.length ≤ body.maxBytes) ∧
    (∀ units length, parseContentLengthUtf16 units = .ok length ↔ WritesLength units length) ∧
    (∀ (now : Int64) (endpoint parameters : Text) (policy : CachePolicy)
        (client next : HttpClient τ (List ByteArray × σ)) (request : HttpRequest),
      client.request endpoint parameters = .ok request →
      client.lookup codec (recordingStore store) request.target now policy = (none, next) →
      (∀ response, (HttpClient.get codec (recordingStore store) (winHttp answer) now endpoint
          parameters policy client).1 = .ok response →
        HonestReply answer request client.transport client.maxResponseBytes response.body) ∧
      HttpClient.AddsHonest codec
        (HonestReply answer request client.transport client.maxResponseBytes) client
        (HttpClient.get codec (recordingStore store) (winHttp answer) now endpoint parameters policy
          client).2) ∧
    ∀ (endpoint parameters : Text) (maxBytes : Fin (2 ^ 64)) (client : HttpClient τ σ)
        (request : HttpRequest) (written : List ByteArray) (files : φ),
      client.request endpoint parameters = .ok request →
      ∃ added, (HttpClient.download (winHttp answer) (recordingWriter writeAtomic) endpoint
          parameters maxBytes (client, written, files)).2.2.1 = written ++ added ∧
        (∀ body ∈ added, HonestReply answer request client.transport maxBytes body) ∧
        ∀ bytes, (HttpClient.download (winHttp answer) (recordingWriter writeAtomic) endpoint
            parameters maxBytes (client, written, files)).1 = .ok bytes →
          ∃ body, added = [body] ∧ bytes = body.size := by
  refine ⟨fun maxBytes declaredLength results => ⟨?_, readBody_spec⟩, ?_, ?_, ?_, ?_⟩
  · exact readBody_requests maxBytes declaredLength results
  · intro body next chunk h
    rw [← (BoundedBody.push_ok h).2.1]
    exact next.fits
  · intro units length
    exact parseContentLengthUtf16_ok_iff
  · intro now endpoint parameters policy client next request hrequest hmiss
    exact HttpClient.get_honest answer now hrequest hmiss
  · intro endpoint parameters maxBytes client request written files hrequest
    exact HttpClient.download_honest answer writeAtomic hrequest written files

end Bodies

def oneByte : Nat → ReadResult
  | 0 => .read [97]
  | _ => .read []

def silent (_ : ParsedRequest) (state : Unit) : Exchange × Unit :=
  (⟨false, none, .failed, fun _ => .failed⟩, state)

theorem one_byte_read : (readBody 3 (some 1) oneByte).2 = .ok [97] := by
  obtain ⟨hread, _⟩ := bodies_are_exact_and_bounded ⟨id, fun _ => none, fun _ => none⟩ noStore
    silent fun _ => (pure () : Fallible Unit FileSystemError Unit)
  obtain ⟨hrequests, hspec⟩ := hread 3 (some 1) oneByte
  have hbytes : ∀ turn, (oneByte turn).bytes.length ≤ 1
    | 0 => Nat.le_refl 1
    | _ + 1 => Nat.zero_le 1
  have hwithin : WithinRequests oneByte 0 (readBody 3 (some 1) oneByte).1 := by
    intro place request hrequest
    exact (hbytes _).trans (hrequests request (List.mem_of_getElem? hrequest)).1
  have hfits : 1 ≤ (3 : Fin (2 ^ 64)).val := by
    rw [show (3 : Fin (2 ^ 64)).val = 3 from rfl]
    omega
  refine ((hspec hwithin).1 [97]).mpr ⟨?_, 1, ?_, rfl, rfl, hfits, by simp⟩
  · rintro length ⟨⟩
    exact hfits
  intro place hplace
  obtain rfl : place = 0 := by omega
  simp [ReadResult.Gives, oneByte, ReadResult.bytes]

end Nexus
