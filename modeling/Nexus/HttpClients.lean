import Nexus.Text
import Nexus.FileSystem
import Nexus.HttpCache
import Nexus.Words

namespace Nexus

open Text

inductive RequestError where
  | invalidBaseUrl
  | invalidEndpoint
  | invalidParameters
  deriving DecidableEq

def schemeSeparator : Text := "://".toList

def httpScheme : Text := "http".toList

def httpsScheme : Text := "https".toList

def isDelimiter (c : Char) : Bool := c = '/' ∨ c = '?' ∨ c = '#'

structure Authority (authority : Text) : Prop where
  nonempty : authority ≠ []
  chars : ∀ c ∈ authority, isDelimiter c = false ∧ c ≠ '@' ∧ isWhiteSpace c = false ∧
    isControl c = false

structure BaseUrl where
  text : Text
  origin : ∃ scheme authority, (scheme = httpScheme ∨ scheme = httpsScheme) ∧ Authority authority ∧
    text = scheme ++ schemeSeparator ++ authority
  deriving DecidableEq

theorem Authority.of_slice {remainder authority : Text}
    (hslice : sliceTo remainder ((find isDelimiter remainder).getD remainder.byteLength) =
      some authority)
    (haccepted : ¬(authority = [] ∨ '@' ∈ authority ∨ authority.any isWhiteSpace = true ∨
      authority.any isControl = true)) : Authority authority := by
  rw [sliceTo_find, Option.some_inj] at hslice
  simp only [not_or, List.any_eq_true, not_exists, not_and, Bool.not_eq_true] at haccepted
  obtain ⟨hempty, hat, hspace, hcontrol⟩ := haccepted
  refine ⟨hempty, fun c hc => ⟨?_, ?_, hspace c hc, hcontrol c hc⟩⟩
  · rw [← hslice] at hc
    simpa using List.mem_takeWhile_imp hc
  · rintro rfl
    exact hat hc

namespace BaseUrl

/-- `BaseUrl::parse`; `none` is a panic. -/
def parse (value : Text) : Option (Except RequestError BaseUrl) :=
  match splitOnce schemeSeparator value with
  | none => some (.error .invalidBaseUrl)
  | some (scheme, remainder) =>
    if hscheme : scheme.asciiLowercase = httpScheme ∨ scheme.asciiLowercase = httpsScheme then
      match hslice :
          sliceTo remainder ((find isDelimiter remainder).getD remainder.byteLength) with
      | none => none
      | some authority =>
        if haccepted : authority = [] ∨ '@' ∈ authority ∨ authority.any isWhiteSpace = true ∨
            authority.any isControl = true then
          some (.error .invalidBaseUrl)
        else
          some (.ok ⟨scheme.asciiLowercase ++ schemeSeparator ++ authority,
            scheme.asciiLowercase, authority, hscheme, .of_slice hslice haccepted, rfl⟩)
    else some (.error .invalidBaseUrl)

end BaseUrl

def validateTarget (target : Text) : Except RequestError Unit :=
  if target.head? ≠ some '/' ∨ target.contains schemeSeparator = true ∨ '#' ∈ target ∨
      '\r' ∈ target ∨ '\n' ∈ target then
    .error .invalidEndpoint
  else .ok ()

def targetOf (remainder : Text) : Text :=
  if remainder = [] then ['/']
  else if remainder.head? = some '?' then '/' :: remainder
  else remainder

/-- `BaseUrl::split_absolute`; `none` is a panic. -/
def BaseUrl.splitAbsolute (value : Text) : Option (Except RequestError (BaseUrl × Text)) :=
  if '#' ∈ value ∨ '\r' ∈ value ∨ '\n' ∈ value then some (.error .invalidEndpoint)
  else
    match BaseUrl.parse value with
    | none => none
    | some (.error error) => some (.error error)
    | some (.ok base) =>
      match value.sliceFrom base.text.byteLength with
      | none => none
      | some remainder =>
        match validateTarget (targetOf remainder) with
        | .error error => some (.error error)
        | .ok () => some (.ok (base, targetOf remainder))

structure HttpRequest where
  baseUrl : BaseUrl
  target : Text
  absoluteUrl : Text
  valid : validateTarget target = .ok ()
  absolute : absoluteUrl = baseUrl.text ++ target

def HttpRequest.new (baseUrl : BaseUrl) (target : Text) : Except RequestError HttpRequest :=
  match valid : validateTarget target with
  | .error error => .error error
  | .ok () => .ok ⟨baseUrl, target, baseUrl.text ++ target, valid, rfl⟩

def buildTarget (endpoint parameters : Text) : Except RequestError Text :=
  match validateTarget endpoint with
  | .error error => .error error
  | .ok () =>
    if '\r' ∈ parameters ∨ '\n' ∈ parameters ∨ '#' ∈ parameters then .error .invalidParameters
    else if parameters = [] then .ok endpoint
    else .ok (endpoint ++ (if '?' ∈ endpoint then '&' else '?') :: parameters)

structure DownloadSource where
  baseUrl : BaseUrl
  target : Text
  deriving DecidableEq

namespace DownloadSource

def parse (absoluteUrl : Text) : Option (Except RequestError DownloadSource) :=
  match BaseUrl.splitAbsolute absoluteUrl with
  | none => none
  | some (.error error) => some (.error error)
  | some (.ok (baseUrl, target)) => some (.ok ⟨baseUrl, target⟩)

def absoluteUrl (source : DownloadSource) : Text := source.baseUrl.text ++ source.target

def withSuffix (source : DownloadSource) (suffix : Text) : DownloadSource :=
  match splitOnce ['?'] source.target with
  | none => ⟨source.baseUrl, source.target ++ suffix⟩
  | some (path, query) => ⟨source.baseUrl, path ++ suffix ++ '?' :: query⟩

def legacyDirectChecksumSources (source : DownloadSource) : List DownloadSource :=
  [source.withSuffix ".md5".toList, source.withSuffix ".md5sum".toList]

end DownloadSource

open Fallible

inductive TransportError where
  | requestFailed
  | bodyTooLarge
  | invalidResponse
  deriving DecidableEq

structure TransportResponse where
  statusCode : UInt16
  body : ByteArray
  contentLength : Option UInt64

abbrev Transport (τ : Type) := HttpRequest → Nat → Fallible τ TransportError TransportResponse

inductive ClientError where
  | invalidRequest
  | transport
  | bodyTooLarge
  | contentLengthMismatch
  | invalidStatus
  deriving DecidableEq

inductive DownloadError where
  | invalidRequest
  | invalidLimit
  | transport
  | bodyTooLarge
  | httpStatus (statusCode : UInt16)
  | emptyBody
  | contentLengthMismatch
  | storage
  deriving DecidableEq

def mapTransportError : TransportError → ClientError
  | .bodyTooLarge => .bodyTooLarge
  | .requestFailed | .invalidResponse => .transport

def mapDownloadTransportError : TransportError → DownloadError
  | .bodyTooLarge => .bodyTooLarge
  | .requestFailed | .invalidResponse => .transport

def usizeToU64 (value : Nat) : Nat := if value < 2 ^ 64 then value else 2 ^ 64 - 1

def TransportResponse.mismatched (raw : TransportResponse) : Bool :=
  raw.contentLength.any fun declared => declared.toNat ≠ usizeToU64 raw.body.size

def validateResponse (raw : TransportResponse) (maxBytes : Nat) : Except ClientError Unit :=
  if ¬(100 ≤ raw.statusCode ∧ raw.statusCode ≤ 599) then .error .invalidStatus
  else if maxBytes < raw.body.size then .error .bodyTooLarge
  else if raw.mismatched then .error .contentLengthMismatch
  else .ok ()

structure HttpClient (τ σ : Type) where
  baseUrl : BaseUrl
  transport : τ
  cache : Option (HttpCache σ)
  maxResponseBytes : Fin (2 ^ 64)
  lastCacheError : Option CacheError

namespace HttpClient

variable {τ σ φ : Type}

/-- `HttpClient::new` and `HttpClient::new_with_cache`; `none` is a panic. -/
def new (baseUrl : Text) (transport : τ) (cache : Option (HttpCache σ)) :
    Option (Except RequestError (HttpClient τ σ)) :=
  match BaseUrl.parse baseUrl with
  | none => none
  | some (.error error) => some (.error error)
  | some (.ok baseUrl) => some (.ok ⟨baseUrl, transport, cache, 8 * 1024 * 1024, none⟩)

def withConfig (client : HttpClient τ σ) (maxResponseBytes : Fin (2 ^ 64)) : HttpClient τ σ :=
  { client with maxResponseBytes := if maxResponseBytes = 0 then 1 else maxResponseBytes }

def lookup (codec : CacheCodec) (store : CacheStore σ) (target : Text) (now : Int64)
    (policy : CachePolicy) (client : HttpClient τ σ) : Option HttpResponse × HttpClient τ σ :=
  match client.cache with
  | none => (none, { client with lastCacheError := none })
  | some cache =>
    match cache.lookup codec store (String.ofList target) now policy with
    | (.ok response, cache) =>
      (response, { client with cache := some cache, lastCacheError := none })
    | (.error error, cache) =>
      (none, { client with cache := some cache, lastCacheError := some error })

def remember (codec : CacheCodec) (store : CacheStore σ) (target : Text) (response : HttpResponse)
    (client : HttpClient τ σ) : HttpClient τ σ :=
  match client.cache with
  | none => client
  | some cache =>
    match cache.storeResponse codec store (String.ofList target) response with
    | (.ok (), cache) => { client with cache := some cache }
    | (.error error, cache) =>
      { client with cache := some cache, lastCacheError := some error }

def send (transport : Transport τ) (request : HttpRequest) (maxBytes : Nat) :
    Fallible (HttpClient τ σ) TransportError TransportResponse :=
  zoom HttpClient.transport (fun transport client => { client with transport }) (transport request maxBytes)

/-- `get` from the call of the transport on. -/
def fetch (codec : CacheCodec) (store : CacheStore σ) (transport : Transport τ)
    (request : HttpRequest) (now : Int64) : Fallible (HttpClient τ σ) ClientError HttpResponse :=
  fun client =>
    match send transport request client.maxResponseBytes client with
    | (.error error, client) => (.error (mapTransportError error), client)
    | (.ok raw, client) =>
      match validateResponse raw client.maxResponseBytes with
      | .error error => (.error error, client)
      | .ok () =>
        let response : HttpResponse := ⟨now, raw.statusCode, raw.body, false⟩
        (.ok response, client.remember codec store request.target response)

def request (client : HttpClient τ σ) (endpoint parameters : Text) :
    Except RequestError HttpRequest := do
  let target ← buildTarget endpoint parameters
  HttpRequest.new client.baseUrl target

def get (codec : CacheCodec) (store : CacheStore σ) (transport : Transport τ) (now : Int64)
    (endpoint parameters : Text) (policy : CachePolicy) :
    Fallible (HttpClient τ σ) ClientError HttpResponse := fun client =>
  match client.request endpoint parameters with
  | .error _ => (.error .invalidRequest, client)
  | .ok request =>
    match client.lookup codec store request.target now policy with
    | (some response, client) => (.ok response, client)
    | (none, client) => client.fetch codec store transport request now

def validateDownload (raw : TransportResponse) (maxBytes : Nat) : Except DownloadError Unit :=
  if maxBytes < raw.body.size then .error .bodyTooLarge
  else if raw.statusCode ≠ 200 then .error (.httpStatus raw.statusCode)
  else if raw.body.size = 0 then .error .emptyBody
  else if raw.mismatched then .error .contentLengthMismatch
  else .ok ()

/-- Downloads a bounded body to a destination. The receipt is the number of bytes. -/
def download (transport : Transport τ)
    (writeAtomic : ByteArray → Fallible φ FileSystemError Unit) (endpoint parameters : Text)
    (maxBytes : Fin (2 ^ 64)) : Fallible (HttpClient τ σ × φ) DownloadError Nat :=
  fun (client, files) =>
    if maxBytes = 0 then (.error .invalidLimit, client, files)
    else
      match client.request endpoint parameters with
      | .error _ => (.error .invalidRequest, client, files)
      | .ok request =>
        match send transport request maxBytes client with
        | (.error error, client) => (.error (mapDownloadTransportError error), client, files)
        | (.ok raw, client) =>
          match validateDownload raw maxBytes with
          | .error error => (.error error, client, files)
          | .ok () =>
            match writeAtomic raw.body files with
            | (.error _, files) => (.error .storage, client, files)
            | (.ok (), files) => (.ok raw.body.size, client, files)

def recording (transport : Transport τ) : Transport (List HttpRequest × τ) :=
  fun request maxBytes (handed, inner) =>
    ((transport request maxBytes inner).1, handed ++ [request], (transport request maxBytes inner).2)

def recorded (client : HttpClient τ σ) : HttpClient (List HttpRequest × τ) σ :=
  ⟨client.baseUrl, ([], client.transport), client.cache, client.maxResponseBytes,
    client.lastCacheError⟩

def handed (client : HttpClient (List HttpRequest × τ) σ) : List HttpRequest := client.transport.1

theorem lookup_transport (codec : CacheCodec) (store : CacheStore σ) (target : Text) (now : Int64)
    (policy : CachePolicy) (client : HttpClient τ σ) :
    (client.lookup codec store target now policy).2.transport = client.transport := by
  unfold lookup
  split
  · rfl
  · split <;> rfl

theorem remember_transport (codec : CacheCodec) (store : CacheStore σ) (target : Text)
    (response : HttpResponse) (client : HttpClient τ σ) :
    (client.remember codec store target response).transport = client.transport := by
  unfold remember
  split
  · rfl
  · split <;> rfl

theorem handed_send (transport : Transport τ) (request : HttpRequest) (maxBytes : Nat)
    (client : HttpClient (List HttpRequest × τ) σ) :
    (send (recording transport) request maxBytes client).2.handed = client.handed ++ [request] := rfl

theorem handed_fetch (codec : CacheCodec) (store : CacheStore σ) (transport : Transport τ)
    (request : HttpRequest) (now : Int64) (client : HttpClient (List HttpRequest × τ) σ) :
    (client.fetch codec store (recording transport) request now).2.handed =
      client.handed ++ [request] := by
  have hsend := handed_send transport request client.maxResponseBytes client
  unfold fetch
  split
  next next hnext =>
    rw [hnext] at hsend
    exact hsend
  next hnext =>
    rw [hnext] at hsend
    split
    · exact hsend
    · exact (congrArg Prod.fst (remember_transport ..)).trans hsend

theorem handed_get (codec : CacheCodec) (store : CacheStore σ) (transport : Transport τ)
    (now : Int64) (endpoint parameters : Text) (policy : CachePolicy)
    (client : HttpClient (List HttpRequest × τ) σ) :
    (get codec store (recording transport) now endpoint parameters policy client).2.handed =
        client.handed ∨
      ∃ request, client.request endpoint parameters = .ok request ∧
        (get codec store (recording transport) now endpoint parameters policy client).2.handed =
          client.handed ++ [request] := by
  unfold get
  split
  next => exact Or.inl rfl
  next request hrequest =>
    have hlookup := lookup_transport codec store request.target now policy client
    split
    next next hnext =>
      rw [hnext] at hlookup
      exact Or.inl (congrArg Prod.fst hlookup)
    next hnext =>
      rw [hnext] at hlookup
      refine Or.inr ⟨request, hrequest, ?_⟩
      rw [handed_fetch]
      exact congrArg (· ++ [request]) (congrArg Prod.fst hlookup)

theorem handed_download (transport : Transport τ)
    (writeAtomic : ByteArray → Fallible φ FileSystemError Unit) (endpoint parameters : Text)
    (maxBytes : Fin (2 ^ 64)) (client : HttpClient (List HttpRequest × τ) σ) (files : φ) :
    (download (recording transport) writeAtomic endpoint parameters maxBytes (client, files)).2.1.handed =
        client.handed ∨
      ∃ request, client.request endpoint parameters = .ok request ∧
        (download (recording transport) writeAtomic endpoint parameters maxBytes
          (client, files)).2.1.handed = client.handed ++ [request] := by
  unfold download
  dsimp only
  split
  · exact Or.inl rfl
  · split
    next => exact Or.inl rfl
    next request hrequest =>
      have hsend := handed_send transport request maxBytes client
      refine Or.inr ⟨request, hrequest, ?_⟩
      split
      next hnext =>
        rw [hnext] at hsend
        exact hsend
      next hnext =>
        rw [hnext] at hsend
        split
        · exact hsend
        · split
          · exact hsend
          · exact hsend

theorem request_ok {client : HttpClient τ σ} {endpoint parameters : Text} {request : HttpRequest}
    (h : client.request endpoint parameters = .ok request) :
    request.baseUrl = client.baseUrl ∧ buildTarget endpoint parameters = .ok request.target := by
  obtain ⟨target, hbuild, hnew⟩ := except_bind_ok h
  unfold HttpRequest.new at hnew
  split at hnew
  · cases hnew
  · cases hnew
    exact ⟨rfl, hbuild⟩

end HttpClient

end Nexus
