import Mathlib.Logic.Equiv.Basic
import Nexus.HttpCacheCalls

namespace Nexus

inductive HttpCacheOp where
  | lookup (query : String) (now : Int64) (policy : CachePolicy)
  | storeResponse (query : String) (response : HttpResponse)
  | flush (clearPersistent : Bool)

def HttpCacheOp.NonNegative : HttpCacheOp → Prop
  | .lookup _ now _ => 0 ≤ now.toInt
  | .storeResponse _ response => 0 ≤ response.time.toInt
  | .flush _ => True

inductive HttpCacheEvent where
  | looked (query : String) (result : Except CacheError (Option HttpResponse))
  | responded (query : String) (response : HttpResponse) (result : Except CacheError Unit)
  | flushed (clearPersistent : Bool) (result : Except CacheError Unit)

def HttpResponse.cached (response : HttpResponse) : HttpResponse :=
  { response with fromCache := true }

namespace HttpCacheEvent

def stores (query : String) : HttpCacheEvent → Option HttpResponse
  | responded other response (.ok ()) =>
    if other = query ∧ response.isSuccess = true then some response else none
  | _ => none

def Silences (query : String) : HttpCacheEvent → Prop
  | looked other result => other = query ∧ result = .ok none
  | flushed clearPersistent result => clearPersistent = true ∧ result = .ok ()
  | responded _ _ _ => False

def record (ledger : String → Option HttpResponse) : HttpCacheEvent → String → Option HttpResponse
  | looked query (.ok none) => Function.update ledger query none
  | responded query response (.ok ()) =>
    if response.isSuccess = true then Function.update ledger query (some response.cached)
    else ledger
  | flushed true (.ok ()) => fun _ => none
  | _ => ledger

theorem record_responded (ledger : String → Option HttpResponse) (query : String)
    (response : HttpResponse) : record ledger (.responded query response (.ok ())) =
      if response.isSuccess = true then Function.update ledger query (some response.cached)
      else ledger := rfl

theorem record_cases {ledger : String → Option HttpResponse} {event : HttpCacheEvent}
    {query : String} {response : HttpResponse} (h : event.record ledger query = some response) :
    (event.stores query).map HttpResponse.cached = some response ∨
      event.stores query = none ∧ ledger query = some response := by
  cases event with
  | looked other result =>
    match result with
    | .ok none =>
      have hupdate : Function.update ledger other none query = some response := h
      rw [Function.update_apply] at hupdate
      split at hupdate
      · cases hupdate
      · exact Or.inr ⟨rfl, hupdate⟩
    | .ok (some _) => exact Or.inr ⟨rfl, h⟩
    | .error _ => exact Or.inr ⟨rfl, h⟩
  | responded other stored result =>
    match result with
    | .error _ => exact Or.inr ⟨rfl, h⟩
    | .ok () =>
      rw [record_responded] at h
      have hstores : stores query (.responded other stored (.ok ())) =
        if other = query ∧ stored.isSuccess = true then some stored else none := rfl
      rw [hstores]
      by_cases hsuccess : stored.isSuccess = true
      · rw [if_pos hsuccess, Function.update_apply] at h
        by_cases heq : query = other
        · rw [if_pos heq] at h
          rw [if_pos ⟨heq.symm, hsuccess⟩]
          exact Or.inl h
        · rw [if_neg heq] at h
          rw [if_neg fun hboth => heq hboth.1.symm]
          exact Or.inr ⟨rfl, h⟩
      · rw [if_neg hsuccess] at h
        rw [if_neg fun hboth => hsuccess hboth.2]
        exact Or.inr ⟨rfl, h⟩
  | flushed clearPersistent result =>
    match clearPersistent, result with
    | true, .ok () => cases h
    | true, .error _ => exact Or.inr ⟨rfl, h⟩
    | false, _ => exact Or.inr ⟨rfl, h⟩

theorem record_silences {ledger : String → Option HttpResponse} {event : HttpCacheEvent}
    {query : String} (h : event.Silences query) : event.record ledger query = none := by
  cases event with
  | looked =>
    obtain ⟨rfl, rfl⟩ := h
    exact Function.update_self ..
  | flushed =>
    obtain ⟨rfl, rfl⟩ := h
    rfl
  | responded => exact h.elim

def lastStored (query : String) : List HttpCacheEvent → Option HttpResponse
  | [] => none
  | event :: later => (lastStored query later).or (event.stores query)

theorem ledger_cases {events : List HttpCacheEvent} {ledger : String → Option HttpResponse}
    {query : String} {response : HttpResponse}
    (h : events.foldl record ledger query = some response) :
    (lastStored query events).map HttpResponse.cached = some response ∨
      lastStored query events = none ∧ ledger query = some response := by
  induction events generalizing ledger with
  | nil => exact Or.inr ⟨rfl, h⟩
  | cons event later ih =>
    have hlast : lastStored query (event :: later) =
      (lastStored query later).or (event.stores query) := rfl
    rw [hlast]
    rcases ih h with hlater | ⟨hnone, hrecord⟩
    · obtain ⟨_, hfound, hcached⟩ := Option.map_eq_some_iff.mp hlater
      rw [hfound, Option.some_or, Option.map_some, hcached]
      exact Or.inl rfl
    · rw [hnone, Option.none_or]
      exact record_cases hrecord

end HttpCacheEvent

namespace HttpCache

variable {codec : CacheCodec}

def perform (codec : CacheCodec) (cache : Cache) : HttpCacheOp → HttpCacheEvent × Cache
  | .lookup query now policy =>
    let (result, next) := lookup codec StoredRecords.store query now policy cache
    (.looked query result, next)
  | .storeResponse query response =>
    let (result, next) := storeResponse codec StoredRecords.store query response cache
    (.responded query response result, next)
  | .flush clearPersistent =>
    let (result, next) := flush StoredRecords.store clearPersistent cache
    (.flushed clearPersistent result, next)

def run (codec : CacheCodec) (cache : Cache) : List HttpCacheOp → List HttpCacheEvent × Cache
  | [] => ([], cache)
  | op :: ops =>
    let (event, next) := perform codec cache op
    let (events, last) := run codec next ops
    (event :: events, last)

/-- Memory holds what the store holds, and the store what a lookup may answer. -/
structure Coherent (codec : CacheCodec) (cache : Cache) (ledger : String → Option HttpResponse) :
    Prop where
  memory : ∀ query record, cache.entries query = some record →
    ∃ encoded, cache.store.entries (codec.cacheKeyForQuery query) = some encoded ∧
      codec.decode encoded = some record ∧ encoded.size ≤ cache.maxRecordBytes
  store : ∀ query encoded record,
    cache.store.entries (codec.cacheKeyForQuery query) = some encoded →
      codec.decode encoded = some record → ledger query = some (record.intoResponse true)

section Step

variable {cache next : Cache} {ledger : String → Option HttpResponse}

theorem Coherent.leaves (h : Coherent codec cache ledger)
    {entries : String → Option CacheRecord} (hl : Leaves cache next entries cache.store.entries)
    (hentries : ∀ query record, entries query = some record → cache.entries query = some record) :
    Coherent codec next ledger where
  memory := fun query record hheld => by
    rw [hl.entries] at hheld
    rw [hl.stored, hl.limit]
    exact h.memory query record (hentries query record hheld)
  store := fun query encoded record hheld hdecoded => by
    rw [hl.stored] at hheld
    exact h.store query encoded record hheld hdecoded

variable (hfaithful : codec.Faithful)

include hfaithful in
theorem Coherent.updated (h : Coherent codec cache ledger) {query : String}
    {held : Option CacheRecord} {encoded : Option ByteArray}
    (hl : Leaves cache next (Function.update cache.entries query held)
      (Function.update cache.store.entries (codec.cacheKeyForQuery query) encoded))
    (hheld : ∀ record, held = some record → ∃ bytes, encoded = some bytes ∧
      codec.decode bytes = some record ∧ bytes.size ≤ cache.maxRecordBytes)
    {response : Option HttpResponse}
    (hserved : ∀ bytes record, encoded = some bytes → codec.decode bytes = some record →
      response = some (record.intoResponse true)) :
    Coherent codec next (Function.update ledger query response) where
  memory := fun other record hother => by
    rw [hl.entries, Function.update_apply] at hother
    rw [hl.stored, hl.limit, Function.update_apply]
    by_cases heq : other = query
    · subst heq
      rw [if_pos rfl] at hother ⊢
      exact hheld record hother
    · rw [if_neg heq] at hother
      rw [if_neg fun hkey => heq (hfaithful.key_injective hkey)]
      exact h.memory other record hother
  store := fun other bytes record hbytes hdecoded => by
    rw [hl.stored, Function.update_apply] at hbytes
    rw [Function.update_apply]
    by_cases heq : other = query
    · subst heq
      rw [if_pos rfl] at hbytes ⊢
      exact hserved bytes record hbytes hdecoded
    · rw [if_neg fun hkey => heq (hfaithful.key_injective hkey)] at hbytes
      rw [if_neg heq]
      exact h.store other bytes record hbytes hdecoded

include hfaithful in
theorem coherent_perform (h : Coherent codec cache ledger) (op : HttpCacheOp) :
    Coherent codec (perform codec cache op).2 ((perform codec cache op).1.record ledger) := by
  cases op with
  | lookup query now policy =>
    show Coherent codec (lookup codec StoredRecords.store query now policy cache).2
      (HttpCacheEvent.record ledger (.looked query
        (lookup codec StoredRecords.store query now policy cache).1))
    have hlooked := looked_lookup codec cache query now policy
    revert hlooked
    generalize (lookup codec StoredRecords.store query now policy cache).1 = result
    generalize (lookup codec StoredRecords.store query now policy cache).2 = next
    intro hlooked
    cases hlooked with
    | memory => exact h
    | stored _ encoded next held decoded bounded _ leaves =>
      refine ⟨fun other found hother => ?_, fun other bytes found hbytes hdecoded => ?_⟩
      · rw [leaves.entries, Function.update_apply] at hother
        rw [leaves.stored, leaves.limit]
        split at hother
        next heq =>
          cases hother
          rw [heq]
          exact ⟨encoded, held, decoded, bounded⟩
        next => exact h.memory other found hother
      · rw [leaves.stored] at hbytes
        exact h.store other bytes found hbytes hdecoded
    | miss _ leaves =>
      exact h.updated hfaithful leaves (fun _ hrecord => by cases hrecord)
        fun _ _ hbytes => by cases hbytes
    | failed _ _ forgets leaves => exact h.leaves leaves forgets
  | storeResponse query response =>
    show Coherent codec (storeResponse codec StoredRecords.store query response cache).2
      (HttpCacheEvent.record ledger (.responded query response
        (storeResponse codec StoredRecords.store query response cache).1))
    have hresponded := responded_storeResponse codec cache query response
    revert hresponded
    generalize (storeResponse codec StoredRecords.store query response cache).1 = result
    generalize (storeResponse codec StoredRecords.store query response cache).2 = next
    intro hresponded
    cases hresponded with
    | ignored unsuccessful =>
      rw [HttpCacheEvent.record_responded, if_neg (by rw [unsuccessful]; exact Bool.false_ne_true)]
      exact h
    | stored successful record encoded _ served encodes bounded leaves =>
      rw [HttpCacheEvent.record_responded, if_pos successful]
      have hdecoded := hfaithful.decode_encode record encoded encodes
      refine h.updated hfaithful leaves (fun found hfound => ?_) fun bytes found hbytes hfound => ?_
      · cases hfound
        exact ⟨encoded, rfl, hdecoded, bounded⟩
      · cases hbytes
        rw [hdecoded] at hfound
        cases hfound
        rw [served]
        rfl
    | failed _ _ leaves => exact h.leaves leaves fun _ _ hheld => hheld
  | flush clearPersistent =>
    show Coherent codec (flush StoredRecords.store clearPersistent cache).2
      (HttpCacheEvent.record ledger (.flushed clearPersistent
        (flush StoredRecords.store clearPersistent cache).1))
    have hflushed := flushed_flush cache clearPersistent
    revert hflushed
    generalize (flush StoredRecords.store clearPersistent cache).1 = result
    generalize (flush StoredRecords.store clearPersistent cache).2 = next
    intro hflushed
    cases hflushed with
    | memory kept _ leaves =>
      rw [kept]
      exact h.leaves leaves fun _ _ hheld => by cases hheld
    | cleared requested _ leaves =>
      rw [requested]
      refine ⟨fun query record hheld => ?_, fun query encoded record hheld _ => ?_⟩
      · rw [leaves.entries] at hheld
        cases hheld
      · rw [leaves.stored] at hheld
        cases hheld
    | failed _ leaves =>
      have hsame : HttpCacheEvent.record ledger (.flushed clearPersistent (.error .storage)) =
          ledger := by cases clearPersistent <;> rfl
      rw [hsame]
      exact h.leaves leaves fun _ _ hheld => by cases hheld

include hfaithful in
theorem coherent_run (h : Coherent codec cache ledger) (ops : List HttpCacheOp) :
    Coherent codec (run codec cache ops).2
      ((run codec cache ops).1.foldl HttpCacheEvent.record ledger) := by
  induction ops generalizing cache ledger with
  | nil => exact h
  | cons op _ ih => exact ih (coherent_perform hfaithful h op)

theorem age_of_fresh {record : CacheRecord} {now : Int64} {maxAge : Duration}
    (h : record.isFresh now maxAge = true) (htime : 0 ≤ record.time.toInt) :
    record.time.toInt ≤ now.toInt ∧ now.toInt - record.time.toInt < maxAge.secs := by
  unfold CacheRecord.isFresh at h
  split at h
  · cases h
  next hvalid =>
  have hpast : record.time.toInt ≤ now.toInt := by
    rw [not_or, not_or, Int64.not_lt] at hvalid
    exact Int64.le_iff_toInt_le.mp hvalid.2.2
  have hexact : CacheRecord.saturatingSub now record.time = now.toInt - record.time.toInt := by
    have hbound := now.toInt_le
    unfold CacheRecord.saturatingSub
    dsimp only
    rw [if_neg, if_neg]
    · omega
    · have hmin := Int64.toInt_minValue_lt_zero
      omega
  rw [hexact] at h
  dsimp only at h
  split at h
  · cases h
  · have hage := of_decide_eq_true h
    omega

theorem hit_ledger (h : Coherent codec cache ledger) {query : String} {now : Int64}
    {policy : CachePolicy} {response : HttpResponse}
    (hit : (lookup codec StoredRecords.store query now policy cache).1 = .ok (some response)) :
    ledger query = some response ∧ ∃ record : CacheRecord, response = record.intoResponse true ∧
      record.isFresh now (cache.selectedMaxAge policy) = true := by
  have hlooked := looked_lookup codec cache query now policy
  rw [hit] at hlooked
  generalize (lookup codec StoredRecords.store query now policy cache).2 = next at hlooked
  cases hlooked with
  | memory record held fresh =>
    obtain ⟨encoded, hstored, hdecoded, _⟩ := h.memory query record held
    exact ⟨h.store query encoded record hstored hdecoded, record, rfl, fresh⟩
  | stored record encoded _ held decoded _ fresh =>
    exact ⟨h.store query encoded record held decoded, record, rfl, fresh⟩

variable (codec cache) in
theorem discard_works {query : String} (hworks : cache.store.faults cache.store.calls = false) :
    (discard codec StoredRecords.store query cache).1 = .ok none := by
  rcases discard_cases codec cache query with ⟨hfault, _⟩ | ⟨_, _, hrun, _⟩
  · rw [hworks] at hfault
    cases hfault
  · rw [hrun]

variable (cache) in
theorem load_works {query : String} {encoded : ByteArray}
    (hworks : cache.store.faults cache.store.calls = false)
    (hheld : cache.store.entries (codec.cacheKeyForQuery query) = some encoded)
    (hbounded : encoded.size ≤ cache.maxRecordBytes) :
    onStore (StoredRecords.store.load (codec.cacheKeyForQuery query) cache.maxRecordBytes) cache =
      (.ok (some encoded), { cache with
        store := { cache.store with calls := cache.store.calls + 1 } }) := by
  refine (onStore_of (StoredRecords.call_of_not_fault hworks)).trans ?_
  dsimp only
  rw [hheld]
  dsimp only
  rw [if_neg (Nat.not_lt.mpr hbounded)]
  rfl

def reopened (cache : Cache) : Cache := { cache with entries := fun _ => none }

theorem lookup_reopened (h : Coherent codec cache ledger) {query : String} {record : CacheRecord}
    (held : cache.entries query = some record)
    (hworks : cache.store.faults cache.store.calls = false)
    (hworks' : cache.store.faults (cache.store.calls + 1) = false) (now : Int64)
    (policy : CachePolicy) :
    (lookup codec StoredRecords.store query now policy cache.reopened).1 =
      (lookup codec StoredRecords.store query now policy cache).1 := by
  obtain ⟨_, hstored, hdecoded, hbounded⟩ := h.memory query record held
  have hload := load_works cache.reopened hworks hstored hbounded
  have hage : cache.reopened.selectedMaxAge policy = cache.selectedMaxAge policy := by
    cases policy <;> rfl
  have hforgotten : cache.reopened.entries query = none := rfl
  unfold lookup
  dsimp only
  rw [hage]
  split
  · exact (discard_works codec (cache.reopened.forget query) hworks).trans
      (discard_works codec (cache.forget query) hworks).symm
  rw [held, hforgotten]
  dsimp only
  rw [hload]
  dsimp only
  rw [hdecoded]
  dsimp only
  split
  · rfl
  · exact (discard_works codec { cache.reopened with
      store := { cache.store with calls := cache.store.calls + 1 } } hworks').trans
      (discard_works codec (cache.forget query) hworks).symm

theorem stores_perform {op : HttpCacheOp} (hop : op.NonNegative) {query : String}
    {response : HttpResponse} (h : (perform codec cache op).1.stores query = some response) :
    0 ≤ response.time.toInt := by
  cases op with
  | lookup | flush => cases h
  | storeResponse other stored =>
    have hresult : HttpCacheEvent.stores query (.responded other stored
        (storeResponse codec StoredRecords.store other stored cache).1) = some response := h
    generalize (storeResponse codec StoredRecords.store other stored cache).1 = result at hresult
    match result with
    | .error _ => cases hresult
    | .ok () =>
      have hstored : (if other = query ∧ stored.isSuccess = true then some stored else none) =
        some response := hresult
      split at hstored
      · cases hstored
        exact hop
      · cases hstored

variable (codec cache) in
theorem lastStored_nonneg {ops : List HttpCacheOp} (hops : ∀ op ∈ ops, op.NonNegative)
    (query : String) (last : HttpResponse)
    (h : HttpCacheEvent.lastStored query (run codec cache ops).1 = some last) :
    0 ≤ last.time.toInt := by
  induction ops generalizing cache with
  | nil => cases h
  | cons op ops ih =>
    have hlast : HttpCacheEvent.lastStored query (run codec cache (op :: ops)).1 =
      (HttpCacheEvent.lastStored query (run codec (perform codec cache op).2 ops).1).or
        ((perform codec cache op).1.stores query) := rfl
    rw [hlast, Option.or_eq_some_iff] at h
    rcases h with hlater | ⟨_, hfirst⟩
    · exact ih (perform codec cache op).2
        (fun later hlater => hops later (List.mem_cons_of_mem _ hlater)) hlater
    · exact stores_perform (hops op List.mem_cons_self) hfirst

end Step

/-- The response that the last storing call stored or, when none did, that the store had before. -/
def Served (codec : CacheCodec) (stored : StoredRecords) (events : List HttpCacheEvent)
    (query : String) (response : HttpResponse) : Prop :=
  (∃ last, HttpCacheEvent.lastStored query events = some last ∧ response = last.cached) ∨
    HttpCacheEvent.lastStored query events = none ∧ ∃ encoded record,
      stored.entries (codec.cacheKeyForQuery query) = some encoded ∧
        codec.decode encoded = some record ∧ response = record.intoResponse true

def opened (codec : CacheCodec) (stored : StoredRecords) (query : String) : Option HttpResponse :=
  ((stored.entries (codec.cacheKeyForQuery query)).bind codec.decode).map fun record =>
    record.intoResponse true

theorem coherent_new (codec : CacheCodec) (stored : StoredRecords) (age : Duration)
    (limit : Nat) : Coherent codec ((HttpCache.new stored age).withMaxRecordBytes limit)
      (opened codec stored) where
  memory := fun _ _ hheld => by cases hheld
  store := fun query encoded record hheld hdecoded => by
    have hstored : stored.entries (codec.cacheKeyForQuery query) = some encoded := hheld
    unfold opened
    rw [hstored, Option.bind_some, hdecoded, Option.map_some]

/-- In every run a hit is the response stored last, with an age below the selected maximum; after a
miss or a flush of the store there is no hit until a response is stored; and what memory answers, a new
cache over the same store answers. -/
theorem http_cache_coherent {codec : CacheCodec} (hfaithful : codec.Faithful)
    (stored : StoredRecords)
    (hstored : ∀ key encoded record, stored.entries key = some encoded →
      codec.decode encoded = some record → 0 ≤ record.time.toInt)
    (age : Duration) (limit : Nat) (ops : List HttpCacheOp)
    (hops : ∀ op ∈ ops, op.NonNegative) :
    let (events, cache) := run codec ((HttpCache.new stored age).withMaxRecordBytes limit) ops
    (∀ query now policy response, 0 ≤ now.toInt →
        (lookup codec StoredRecords.store query now policy cache).1 = .ok (some response) →
          Served codec stored events query response ∧ response.time.toInt ≤ now.toInt ∧
            now.toInt - response.time.toInt < (cache.selectedMaxAge policy).secs) ∧
      (∀ op query, (perform codec cache op).1.Silences query → ∀ later,
        HttpCacheEvent.lastStored query (run codec (perform codec cache op).2 later).1 = none →
          ∀ now policy response, (lookup codec StoredRecords.store query now policy
            (run codec (perform codec cache op).2 later).2).1 ≠ .ok (some response)) ∧
      ∀ query now policy record, cache.entries query = some record →
        cache.store.faults cache.store.calls = false →
          cache.store.faults (cache.store.calls + 1) = false →
            (lookup codec StoredRecords.store query now policy cache.reopened).1 =
              (lookup codec StoredRecords.store query now policy cache).1 := by
  generalize hran : run codec ((HttpCache.new stored age).withMaxRecordBytes limit) ops = ran
  have hrun := coherent_run hfaithful (coherent_new codec stored age limit) ops
  have hnonneg := fun query last =>
    lastStored_nonneg codec ((HttpCache.new stored age).withMaxRecordBytes limit) hops query last
  rw [hran] at hrun hnonneg
  obtain ⟨events, cache⟩ := ran
  refine ⟨fun query now policy response _ hit => ?_, fun op query hsilences later hnone now policy
    response hit => ?_, fun query now policy record hheld hworks hworks' =>
      lookup_reopened hrun hheld hworks hworks' now policy⟩
  · obtain ⟨hledger, record, rfl, hfresh⟩ := hit_ledger hrun hit
    rcases HttpCacheEvent.ledger_cases hledger with hlast | ⟨hnone, hopened⟩
    · obtain ⟨last, hfound, hcached⟩ := Option.map_eq_some_iff.mp hlast
      have htime : 0 ≤ record.time.toInt := by
        have hlastTime := hnonneg query last hfound
        have hsame : last.time = record.time := congrArg HttpResponse.time hcached
        rw [hsame] at hlastTime
        exact hlastTime
      exact ⟨Or.inl ⟨last, hfound, hcached.symm⟩, age_of_fresh hfresh htime⟩
    · obtain ⟨found, hfound, hserved⟩ := Option.map_eq_some_iff.mp hopened
      obtain ⟨encoded, hheld, hdecoded⟩ := Option.bind_eq_some_iff.mp hfound
      have htime : 0 ≤ record.time.toInt := by
        have hfoundTime := hstored _ _ _ hheld hdecoded
        have hsame : found.time = record.time := congrArg HttpResponse.time hserved
        rw [hsame] at hfoundTime
        exact hfoundTime
      exact ⟨Or.inr ⟨hnone, encoded, found, hheld, hdecoded, hserved.symm⟩,
        age_of_fresh hfresh htime⟩
  · have hlater := coherent_run hfaithful (coherent_perform hfaithful hrun op) later
    obtain ⟨hledger, _⟩ := hit_ledger hlater hit
    rcases HttpCacheEvent.ledger_cases hledger with hlast | ⟨_, hbefore⟩
    · rw [hnone] at hlast
      cases hlast
    · rw [HttpCacheEvent.record_silences hsilences] at hbefore
      cases hbefore

def sampleRecord : CacheRecord := ⟨100, 200, "", "body"⟩

def sampleText : ByteArray :=
  ("\x7b\n  \"Time\": 100,\n  \"StatusCode\": 200,\n  \"Error\": \"\",\n" ++
    "  \"Content\": \"body\"\n\x7d").toUTF8

def sampleCodec : CacheCodec where
  cacheKeyForQuery := Equiv.swap "/query"
    "645c82d3be5cca3e8520101eb38681a7056c109d5e2bfb361773492c23023ace.json"
  encode := fun record => if record = sampleRecord then some sampleText else none
  decode := fun encoded => if encoded.data = sampleText.data then some sampleRecord else none

theorem sampleCodec_faithful : sampleCodec.Faithful where
  key_injective := Equiv.injective _
  decode_encode := fun record encoded h => by
    unfold sampleCodec at h ⊢
    dsimp only at h ⊢
    split at h
    next heq =>
      cases h
      rw [if_pos rfl, heq]
    · cases h

def sampleStored : StoredRecords := ⟨fun _ => none, fun _ => false, 0⟩

def sampleResponse : HttpResponse := ⟨100, 200, "body".toUTF8, false⟩

/-- The stored response is answered one second before its time is up. -/
theorem http_cache_hit :
    let ran := run sampleCodec ((HttpCache.new sampleStored ⟨30, 0, by decide⟩).withMaxRecordBytes
      1024) [.storeResponse "/query" sampleResponse]
    Served sampleCodec sampleStored ran.1 "/query" sampleResponse.cached :=
  ((http_cache_coherent sampleCodec_faithful sampleStored (fun _ _ _ h => by cases h)
    ⟨30, 0, by decide⟩ 1024 [.storeResponse "/query" sampleResponse]
    (fun op hop => by
      rw [List.mem_singleton.mp hop]
      show 0 ≤ sampleResponse.time.toInt
      decide)).1 "/query" 129 .default sampleResponse.cached (by decide) (by decide +kernel)).1

end HttpCache

end Nexus
