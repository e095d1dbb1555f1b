import Nexus.HttpCache

namespace Nexus

namespace HttpCache

open Fallible

abbrev Cache := HttpCache StoredRecords

structure Leaves (cache next : Cache) (entries : String → Option CacheRecord)
    (stored : String → Option ByteArray) : Prop where
  entries : next.entries = entries
  stored : next.store.entries = stored
  limit : next.maxRecordBytes = cache.maxRecordBytes
  age : next.defaultMaxAge = cache.defaultMaxAge

variable {codec : CacheCodec} {cache : Cache}

theorem Leaves.trans {middle next : Cache} {entries entries' : String → Option CacheRecord}
    {stored stored' : String → Option ByteArray} (h : Leaves cache middle entries stored)
    (h' : Leaves middle next entries' stored') : Leaves cache next entries' stored' :=
  ⟨h'.entries, h'.stored, h'.limit.trans h.limit, h'.age.trans h.age⟩

theorem Leaves.same : Leaves cache cache cache.entries cache.store.entries := ⟨rfl, rfl, rfl, rfl⟩

theorem onStore_call {α : Type} (work : (String → Option ByteArray) →
    Except CacheStoreError α × (String → Option ByteArray)) (cache : Cache) :
    cache.store.faults cache.store.calls = true ∧ (∃ next,
        onStore (StoredRecords.call work) cache = (.error .storage, next) ∧
          Leaves cache next cache.entries cache.store.entries) ∨
      cache.store.faults cache.store.calls = false ∧ ∃ next,
        onStore (StoredRecords.call work) cache =
          ((work cache.store.entries).1.mapError fun _ => .storage, next) ∧
          Leaves cache next cache.entries (work cache.store.entries).2 := by
  rcases hfault : cache.store.faults cache.store.calls with _ | _
  · exact Or.inr ⟨rfl, _, onStore_of (StoredRecords.call_of_not_fault hfault), rfl, rfl, rfl, rfl⟩
  · exact Or.inl ⟨rfl, _, onStore_of (StoredRecords.call_of_fault hfault), rfl, rfl, rfl, rfl⟩

variable (codec cache) in
theorem discard_cases (query : String) :
    (cache.store.faults cache.store.calls = true ∧ ∃ next,
        discard codec StoredRecords.store query cache = (.error .storage, next) ∧
          Leaves cache next cache.entries cache.store.entries) ∨
      cache.store.faults cache.store.calls = false ∧ ∃ next,
        discard codec StoredRecords.store query cache = (.ok none, next) ∧
          Leaves cache next cache.entries
            (Function.update cache.store.entries (codec.cacheKeyForQuery query) none) := by
  unfold discard
  rcases onStore_call (fun entries => (.ok (), Function.update entries
    (codec.cacheKeyForQuery query) none)) cache with ⟨hfault, next, hrun, h⟩ | ⟨hfault, next, hrun, h⟩
  · exact Or.inl ⟨hfault, next, bind_of_error hrun _, h⟩
  · exact Or.inr ⟨hfault, next, bind_of_ok hrun _, h⟩

def Loads (codec : CacheCodec) (cache : Cache) (query : String) :
    Except CacheError (Option ByteArray) → Prop
  | .error error => error = .storage
  | .ok none => cache.store.entries (codec.cacheKeyForQuery query) = none
  | .ok (some encoded) =>
    cache.store.entries (codec.cacheKeyForQuery query) = some encoded ∧
      encoded.size ≤ cache.maxRecordBytes

variable (codec cache) in
theorem load_cases (query : String) : ∃ result next,
    onStore (StoredRecords.store.load (codec.cacheKeyForQuery query) cache.maxRecordBytes) cache =
        (result, next) ∧
      Leaves cache next cache.entries cache.store.entries ∧ Loads codec cache query result := by
  unfold StoredRecords.store
  change ∃ result next, onStore (StoredRecords.call ?work) cache = (result, next) ∧ _ ∧ _
  rcases onStore_call ?work cache with ⟨_, next, hrun, h⟩ | ⟨_, next, hrun, h⟩
  · exact ⟨_, next, hrun, h, rfl⟩
  · refine ⟨_, next, hrun, ?_⟩
    rcases hheld : cache.store.entries (codec.cacheKeyForQuery query) with _ | value
    · rw [hheld] at h
      exact ⟨h, hheld⟩
    · rw [hheld] at h
      dsimp only at h ⊢
      split at h
      next hlarge =>
        rw [if_pos hlarge]
        exact ⟨h, rfl⟩
      next hbounded =>
        rw [if_neg hbounded]
        exact ⟨h, hheld, Nat.le_of_not_lt hbounded⟩

inductive Looked (codec : CacheCodec) (cache : Cache) (query : String) (now : Int64)
    (policy : CachePolicy) : Except CacheError (Option HttpResponse) → Cache → Prop where
  | memory (record : CacheRecord) (held : cache.entries query = some record)
      (fresh : record.isFresh now (cache.selectedMaxAge policy) = true) :
    Looked codec cache query now policy (.ok (some (record.intoResponse true))) cache
  | stored (record : CacheRecord) (encoded : ByteArray) (next : Cache)
      (held : cache.store.entries (codec.cacheKeyForQuery query) = some encoded)
      (decoded : codec.decode encoded = some record)
      (bounded : encoded.size ≤ cache.maxRecordBytes)
      (fresh : record.isFresh now (cache.selectedMaxAge policy) = true)
      (leaves : Leaves cache next (Function.update cache.entries query (some record))
        cache.store.entries) :
    Looked codec cache query now policy (.ok (some (record.intoResponse true))) next
  | miss (next : Cache) (leaves : Leaves cache next (Function.update cache.entries query none)
        (Function.update cache.store.entries (codec.cacheKeyForQuery query) none)) :
    Looked codec cache query now policy (.ok none) next
  | failed (next : Cache) (entries : String → Option CacheRecord)
      (forgets : ∀ query record, entries query = some record → cache.entries query = some record)
      (leaves : Leaves cache next entries cache.store.entries) :
    Looked codec cache query now policy (.error .storage) next

theorem Leaves.forget {next : Cache} {query : String} {entries : String → Option CacheRecord}
    {stored : String → Option ByteArray} (h : Leaves (cache.forget query) next entries stored) :
    Leaves cache next entries stored := ⟨h.entries, h.stored, h.limit, h.age⟩

theorem forget_entries {query other : String} {record : CacheRecord}
    (h : Function.update cache.entries query none other = some record) :
    cache.entries other = some record := by
  rw [Function.update_apply] at h
  split at h
  · cases h
  · exact h

theorem looked_discard {query : String} {now : Int64} {policy : CachePolicy} :
    Looked codec cache query now policy
      (discard codec StoredRecords.store query (cache.forget query)).1
      (discard codec StoredRecords.store query (cache.forget query)).2 := by
  rcases discard_cases codec (cache.forget query) query with ⟨_, next, hrun, h⟩ | ⟨_, next, hrun, h⟩
  · rw [hrun]
    exact .failed next _ (fun _ _ => forget_entries) h.forget
  · rw [hrun]
    exact .miss next h.forget

theorem looked_lookup (codec : CacheCodec) (cache : Cache) (query : String) (now : Int64)
    (policy : CachePolicy) :
    Looked codec cache query now policy
      (lookup codec StoredRecords.store query now policy cache).1
      (lookup codec StoredRecords.store query now policy cache).2 := by
  unfold lookup
  dsimp only
  split
  · exact looked_discard
  split
  next record hheld =>
    split
    next hfresh => exact .memory record hheld hfresh
    next => exact looked_discard
  next habsent =>
  have hforget : Function.update cache.entries query none = cache.entries := by
    rw [← habsent]
    exact Function.update_eq_self ..
  obtain ⟨result, next, hrun, hleft, hloads⟩ := load_cases codec cache query
  rw [hrun]
  have hdiscard : Looked codec cache query now policy
      (discard codec StoredRecords.store query next).1
      (discard codec StoredRecords.store query next).2 := by
    rcases discard_cases codec next query with ⟨_, last, hrun, h⟩ | ⟨_, last, hrun, h⟩
    · rw [hrun]
      rw [hleft.entries, hleft.stored] at h
      exact .failed last _ (fun _ _ h => h) (hleft.trans h)
    · rw [hrun]
      rw [hleft.entries, hleft.stored, ← hforget] at h
      exact .miss last (hleft.trans h)
  rcases result with error | _ | encoded
  · obtain rfl : error = .storage := hloads
    exact .failed next _ (fun _ _ h => h) hleft
  · have hstored : Function.update cache.store.entries (codec.cacheKeyForQuery query) none =
        cache.store.entries := by
      rw [← hloads]
      exact Function.update_eq_self ..
    rw [← hforget, ← hstored] at hleft
    exact .miss next hleft
  · obtain ⟨hheld, hbounded⟩ := hloads
    dsimp only
    split
    · exact hdiscard
    next record hdecoded =>
      split
      next hfresh =>
        refine .stored record encoded _ hheld hdecoded hbounded hfresh ⟨?_, hleft.stored,
          hleft.limit, hleft.age⟩
        show Function.update next.entries query (some record) = _
        rw [hleft.entries]
      next => exact hdiscard

inductive Responded (codec : CacheCodec) (cache : Cache) (query : String)
    (response : HttpResponse) : Except CacheError Unit → Cache → Prop where
  | ignored (unsuccessful : response.isSuccess = false) :
    Responded codec cache query response (.ok ()) cache
  | stored (successful : response.isSuccess = true) (record : CacheRecord) (encoded : ByteArray)
      (next : Cache) (served : record.intoResponse true = { response with fromCache := true })
      (encodes : codec.encode record = some encoded)
      (bounded : encoded.size ≤ cache.maxRecordBytes)
      (leaves : Leaves cache next (Function.update cache.entries query (some record))
        (Function.update cache.store.entries (codec.cacheKeyForQuery query) (some encoded))) :
    Responded codec cache query response (.ok ()) next
  | failed (error : CacheError) (next : Cache)
      (leaves : Leaves cache next cache.entries cache.store.entries) :
    Responded codec cache query response (.error error) next

theorem toUTF8_of_fromUTF8? {body : ByteArray} {content : String}
    (h : String.fromUTF8? body = some content) : content.toUTF8 = body := by
  unfold String.fromUTF8? at h
  split at h
  · cases h
    rfl
  · cases h

theorem responded_storeResponse (codec : CacheCodec) (cache : Cache) (query : String)
    (response : HttpResponse) :
    Responded codec cache query response
      (storeResponse codec StoredRecords.store query response cache).1
      (storeResponse codec StoredRecords.store query response cache).2 := by
  unfold storeResponse
  split
  next hunsuccessful => exact .ignored hunsuccessful
  next hsuccessful =>
  rw [Bool.not_eq_false] at hsuccessful
  split
  · exact .failed _ cache .same
  next content hcontent =>
  dsimp only
  split
  · exact .failed _ cache .same
  next encoded hencodes =>
  split
  · exact .failed _ cache .same
  next hbounded =>
  have hserved : CacheRecord.intoResponse ⟨response.time, response.statusCode, "", content⟩ true =
      { response with fromCache := true } := by
    unfold CacheRecord.intoResponse
    rw [toUTF8_of_fromUTF8? hcontent]
  rcases onStore_call (fun entries => (.ok (), Function.update entries
    (codec.cacheKeyForQuery query) (some encoded))) cache with ⟨_, next, hrun, h⟩ | ⟨_, next, hrun, h⟩
  · have hstore : onStore (StoredRecords.store.storeAtomic (codec.cacheKeyForQuery query) encoded)
        cache = (.error .storage, next) := hrun
    rw [hstore]
    exact .failed _ next h
  · have hstore : onStore (StoredRecords.store.storeAtomic (codec.cacheKeyForQuery query) encoded)
        cache = (.ok (), next) := hrun
    rw [hstore]
    refine .stored hsuccessful _ encoded _ hserved hencodes (Nat.le_of_not_lt hbounded)
      ⟨?_, h.stored, h.limit, h.age⟩
    show Function.update next.entries query _ = _
    rw [h.entries]

inductive Flushed (cache : Cache) (clearPersistent : Bool) :
    Except CacheError Unit → Cache → Prop where
  | memory (kept : clearPersistent = false) (next : Cache)
      (leaves : Leaves cache next (fun _ => none) cache.store.entries) :
    Flushed cache clearPersistent (.ok ()) next
  | cleared (requested : clearPersistent = true) (next : Cache)
      (leaves : Leaves cache next (fun _ => none) fun _ => none) :
    Flushed cache clearPersistent (.ok ()) next
  | failed (next : Cache) (leaves : Leaves cache next (fun _ => none) cache.store.entries) :
    Flushed cache clearPersistent (.error .storage) next

theorem flushed_flush (cache : Cache) (clearPersistent : Bool) :
    Flushed cache clearPersistent (flush StoredRecords.store clearPersistent cache).1
      (flush StoredRecords.store clearPersistent cache).2 := by
  unfold flush
  cases clearPersistent with
  | false => exact .memory rfl _ ⟨rfl, rfl, rfl, rfl⟩
  | true =>
    have hleft : Leaves cache { cache with entries := fun _ => none } (fun _ => none)
        cache.store.entries := ⟨rfl, rfl, rfl, rfl⟩
    rw [if_pos rfl]
    rcases onStore_call (fun _ => (.ok (), fun _ => none))
      { cache with entries := fun _ => none } with ⟨_, next, hrun, h⟩ | ⟨_, next, hrun, h⟩
    · have hclear : onStore StoredRecords.store.clear { cache with entries := fun _ => none } =
          (.error .storage, next) := hrun
      rw [hclear]
      exact .failed next (hleft.trans h)
    · have hclear : onStore StoredRecords.store.clear { cache with entries := fun _ => none } =
          (.ok (), next) := hrun
      rw [hclear]
      exact .cleared rfl next (hleft.trans h)

end HttpCache

end Nexus
