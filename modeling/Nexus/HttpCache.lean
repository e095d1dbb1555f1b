import Mathlib.Data.String.Basic
import Mathlib.Logic.Function.Basic
import Nexus.Fallible

namespace Nexus

structure Duration where
  secs : Nat
  nanos : Nat
  nanos_lt : nanos < 1000000000

def Duration.isZero (duration : Duration) : Bool := duration.secs = 0 ∧ duration.nanos = 0

inductive CachePolicy where
  | default
  | maxAge (maxAge : Duration)

inductive CacheStoreError where
  | entryTooLarge
  | operationFailed
  deriving DecidableEq

inductive CacheError where
  | storage
  | nonUtf8Body
  | encoding
  deriving DecidableEq

structure HttpResponse where
  time : Int64
  statusCode : UInt16
  body : ByteArray
  fromCache : Bool

instance : DecidableEq HttpResponse := fun a b =>
  decidable_of_iff (a.time = b.time ∧ a.statusCode = b.statusCode ∧ a.body.data = b.body.data ∧
    a.fromCache = b.fromCache) (by
      rcases a with ⟨_, _, ⟨_⟩, _⟩
      rcases b with ⟨_, _, ⟨_⟩, _⟩
      simp)

def HttpResponse.isSuccess (response : HttpResponse) : Bool := response.statusCode < 400

structure CacheRecord where
  time : Int64
  statusCode : UInt16
  error : String
  content : String
  deriving DecidableEq

namespace CacheRecord

def saturatingSub (a b : Int64) : Int :=
  let difference := a.toInt - b.toInt
  if difference < Int64.minValue.toInt then Int64.minValue.toInt
  else if Int64.maxValue.toInt < difference then Int64.maxValue.toInt
  else difference

def isFresh (record : CacheRecord) (now : Int64) (maxAge : Duration) : Bool :=
  if record.error ≠ "" ∨ 400 ≤ record.statusCode ∨ now < record.time then false
  else
    let age := saturatingSub now record.time
    if age < 0 then false else age.toNat < maxAge.secs

def intoResponse (record : CacheRecord) (fromCache : Bool) : HttpResponse :=
  ⟨record.time, record.statusCode, record.content.toUTF8, fromCache⟩

end CacheRecord

structure CacheCodec where
  cacheKeyForQuery : String → String
  encode : CacheRecord → Option ByteArray
  decode : ByteArray → Option CacheRecord

/-- Keys do not collide and what is encoded is read back. -/
structure CacheCodec.Faithful (codec : CacheCodec) : Prop where
  key_injective : Function.Injective codec.cacheKeyForQuery
  decode_encode : ∀ record encoded, codec.encode record = some encoded →
    codec.decode encoded = some record

/-- Persistent storage boundary for the records. -/
structure CacheStore (σ : Type) where
  load : String → Nat → Fallible σ CacheStoreError (Option ByteArray)
  storeAtomic : String → ByteArray → Fallible σ CacheStoreError Unit
  remove : String → Fallible σ CacheStoreError Unit
  clear : Fallible σ CacheStoreError Unit

structure StoredRecords where
  entries : String → Option ByteArray
  faults : Nat → Bool
  calls : Nat

namespace StoredRecords

def call {α : Type} (work : (String → Option ByteArray) →
    Except CacheStoreError α × (String → Option ByteArray)) :
    Fallible StoredRecords CacheStoreError α := fun stored =>
  if stored.faults stored.calls then
    (.error .operationFailed, { stored with calls := stored.calls + 1 })
  else
    ((work stored.entries).1,
      { stored with entries := (work stored.entries).2, calls := stored.calls + 1 })

variable {α : Type}
  {work : (String → Option ByteArray) → Except CacheStoreError α × (String → Option ByteArray)}
  {stored : StoredRecords}

theorem call_of_fault (h : stored.faults stored.calls = true) :
    call work stored = (.error .operationFailed, { stored with calls := stored.calls + 1 }) :=
  if_pos h

theorem call_of_not_fault (h : stored.faults stored.calls = false) :
    call work stored = ((work stored.entries).1,
      { stored with entries := (work stored.entries).2, calls := stored.calls + 1 }) :=
  if_neg (by rw [h]; exact Bool.false_ne_true)

def store : CacheStore StoredRecords where
  load := fun key limit => call fun entries =>
    match entries key with
    | none => (.ok none, entries)
    | some value =>
      if limit < value.size then (.error .entryTooLarge, entries) else (.ok (some value), entries)
  storeAtomic := fun key value => call fun entries =>
    (.ok (), Function.update entries key (some value))
  remove := fun key => call fun entries => (.ok (), Function.update entries key none)
  clear := call fun _ => (.ok (), fun _ => none)

end StoredRecords

structure HttpCache (σ : Type) where
  entries : String → Option CacheRecord
  store : σ
  defaultMaxAge : Duration
  maxRecordBytes : Nat

namespace HttpCache

variable {σ : Type} (codec : CacheCodec) (store : CacheStore σ)

open Fallible

def defaultMaxRecordBytes : Nat := 8 * 1024 * 1024

def new (backing : σ) (defaultMaxAge : Duration) : HttpCache σ :=
  ⟨fun _ => none, backing, defaultMaxAge, defaultMaxRecordBytes⟩

def withMaxRecordBytes (cache : HttpCache σ) (maxRecordBytes : Nat) : HttpCache σ :=
  { cache with maxRecordBytes := max maxRecordBytes 1 }

def selectedMaxAge (cache : HttpCache σ) : CachePolicy → Duration
  | .default => cache.defaultMaxAge
  | .maxAge maxAge => maxAge

def insert (query : String) (record : CacheRecord) (cache : HttpCache σ) : HttpCache σ :=
  { cache with entries := Function.update cache.entries query (some record) }

def forget (query : String) (cache : HttpCache σ) : HttpCache σ :=
  { cache with entries := Function.update cache.entries query none }

def onStore {α : Type} (work : Fallible σ CacheStoreError α) :
    Fallible (HttpCache σ) CacheError α :=
  mapError (fun _ => .storage) (zoom HttpCache.store (fun backing cache =>
    { cache with store := backing }) work)

theorem onStore_of {α : Type} {work : Fallible σ CacheStoreError α} {cache : HttpCache σ}
    {result : Except CacheStoreError α} {backing : σ} (h : work cache.store = (result, backing)) :
    onStore work cache = (result.mapError fun _ => .storage, { cache with store := backing }) := by
  show ((work cache.store).1.mapError _, { cache with store := (work cache.store).2 }) = _
  rw [h]

def discard (query : String) : Fallible (HttpCache σ) CacheError (Option HttpResponse) := do
  onStore (store.remove (codec.cacheKeyForQuery query))
  pure none

def lookup (query : String) (now : Int64) (policy : CachePolicy) :
    Fallible (HttpCache σ) CacheError (Option HttpResponse) := fun cache =>
  let maxAge := cache.selectedMaxAge policy
  if maxAge.isZero then discard codec store query (cache.forget query)
  else
    match cache.entries query with
    | some record =>
      if record.isFresh now maxAge then (.ok (some (record.intoResponse true)), cache)
      else discard codec store query (cache.forget query)
    | none =>
      match onStore (store.load (codec.cacheKeyForQuery query) cache.maxRecordBytes) cache with
      | (.error error, cache) => (.error error, cache)
      | (.ok none, cache) => (.ok none, cache)
      | (.ok (some encoded), cache) =>
        match codec.decode encoded with
        | none => discard codec store query cache
        | some record =>
          if record.isFresh now maxAge then
            (.ok (some (record.intoResponse true)), cache.insert query record)
          else discard codec store query cache

def storeResponse (query : String) (response : HttpResponse) :
    Fallible (HttpCache σ) CacheError Unit := fun cache =>
  if response.isSuccess = false then (.ok (), cache)
  else
    match String.fromUTF8? response.body with
    | none => (.error .nonUtf8Body, cache)
    | some content =>
      let record : CacheRecord := ⟨response.time, response.statusCode, "", content⟩
      match codec.encode record with
      | none => (.error .encoding, cache)
      | some encoded =>
        if cache.maxRecordBytes < encoded.size then (.error .encoding, cache)
        else
          match onStore (store.storeAtomic (codec.cacheKeyForQuery query) encoded) cache with
          | (.error error, cache) => (.error error, cache)
          | (.ok (), cache) => (.ok (), cache.insert query record)

def flush (clearPersistent : Bool) : Fallible (HttpCache σ) CacheError Unit := fun cache =>
  let cache := { cache with entries := fun _ => none }
  if clearPersistent then onStore store.clear cache else (.ok (), cache)

end HttpCache

end Nexus
