import Nexus.HttpClients

namespace Nexus

open Text

namespace BaseUrl

theorem ext_text {base other : BaseUrl} (h : base.text = other.text) : base = other := by
  cases base
  cases other
  cases h
  rfl

theorem parse_total (value : Text) : ∃ result, parse value = some result := by
  unfold parse
  split
  · exact ⟨_, rfl⟩
  · split
    · split
      next hslice =>
        rw [sliceTo_find] at hslice
        cases hslice
      next =>
        split
        · exact ⟨_, rfl⟩
        · exact ⟨_, rfl⟩
    · exact ⟨_, rfl⟩

theorem parse_ok {value : Text} {base : BaseUrl} (h : parse value = some (.ok base)) :
    ∃ scheme authority rest, value = scheme ++ schemeSeparator ++ authority ++ rest ∧
      (scheme.asciiLowercase = httpScheme ∨ scheme.asciiLowercase = httpsScheme) ∧
      Authority authority ∧ (∀ c ∈ rest.head?, isDelimiter c = true) ∧
      base.text = scheme.asciiLowercase ++ schemeSeparator ++ authority := by
  unfold parse at h
  split at h
  next => cases h
  next scheme remainder hsplit =>
    split at h
    next hscheme =>
      split at h
      next => cases h
      next authority hslice =>
        split at h
        next => cases h
        next haccepted =>
          cases h
          have hauthority := Authority.of_slice hslice haccepted
          rw [sliceTo_find, Option.some_inj] at hslice
          refine ⟨scheme, authority, remainder.dropWhile fun c => !isDelimiter c, ?_, hscheme,
            hauthority, fun c hc => ?_, rfl⟩
          · rw [splitOnce_some hsplit, ← hslice, List.append_assoc (scheme ++ schemeSeparator),
              List.takeWhile_append_dropWhile]
          · have hhead := List.head?_dropWhile_not (fun c => !isDelimiter c) remainder
            rw [Option.mem_def.mp hc] at hhead
            simpa using hhead
    next => cases h

theorem parse_origin {scheme authority : Text}
    (hscheme : scheme = httpScheme ∨ scheme = httpsScheme) (hauthority : Authority authority)
    {rest : Text} (hrest : ∀ c ∈ rest.head?, isDelimiter c = true) {base : BaseUrl}
    (hbase : base.text = scheme ++ schemeSeparator ++ authority) :
    parse (base.text ++ rest) = some (.ok base) := by
  have hsplit : splitOnce schemeSeparator (base.text ++ rest) = some (scheme, authority ++ rest) := by
    rw [hbase, List.append_assoc (scheme ++ schemeSeparator)]
    refine splitOnce_of_first ?_ _
    rcases hscheme with rfl | rfl <;> decide
  have hlower : scheme.asciiLowercase = scheme := by
    rcases hscheme with rfl | rfl <;> decide
  have htake : (authority ++ rest).takeWhile (fun c => !isDelimiter c) = authority := by
    rw [List.takeWhile_append_of_pos fun c hc => by simp [(hauthority.chars c hc).1]]
    cases rest with
    | nil => rw [List.takeWhile_nil, List.append_nil]
    | cons c =>
      have hc := hrest c rfl
      rw [List.takeWhile_cons_of_neg (by simp [hc]), List.append_nil]
  have haccepted : ¬(authority = [] ∨ '@' ∈ authority ∨ authority.any isWhiteSpace = true ∨
      authority.any isControl = true) := by
    rintro (hnil | hat | hspace | hcontrol)
    · exact hauthority.nonempty hnil
    · exact (hauthority.chars '@' hat).2.1 rfl
    · obtain ⟨c, hc, htrue⟩ := List.any_eq_true.mp hspace
      rw [(hauthority.chars c hc).2.2.1] at htrue
      cases htrue
    · obtain ⟨c, hc, htrue⟩ := List.any_eq_true.mp hcontrol
      rw [(hauthority.chars c hc).2.2.2] at htrue
      cases htrue
  unfold parse
  split
  next hnone =>
    rw [hsplit] at hnone
    cases hnone
  next hfound =>
    rw [hsplit] at hfound
    cases hfound
    rw [dif_pos (by rw [hlower]; exact hscheme)]
    split
    next hslice =>
      rw [sliceTo_find] at hslice
      cases hslice
    next hslice =>
      rw [sliceTo_find, htake, Option.some_inj] at hslice
      subst hslice
      rw [dif_neg haccepted]
      refine congrArg (fun base => some (Except.ok base)) (ext_text ?_)
      dsimp only
      rw [hbase, hlower]

theorem parse_append (base : BaseUrl) {rest : Text} (hrest : ∀ c ∈ rest.head?, isDelimiter c = true) :
    parse (base.text ++ rest) = some (.ok base) := by
  obtain ⟨_, _, hscheme, hauthority, htext⟩ := base.origin
  exact parse_origin hscheme hauthority hrest htext

theorem not_mem_text (base : BaseUrl) {c : Char} (h : c = '#' ∨ c = '\r' ∨ c = '\n') :
    c ∉ base.text := by
  obtain ⟨_, _, hscheme, hauthority, htext⟩ := base.origin
  rw [htext, List.mem_append, List.mem_append]
  rintro ((hmem | hmem) | hmem)
  · rcases hscheme with rfl | rfl <;> rcases h with rfl | rfl | rfl <;> revert hmem <;> decide
  · rcases h with rfl | rfl | rfl <;> revert hmem <;> decide
  · obtain ⟨hdelimiter, _, _, hcontrol⟩ := hauthority.chars c hmem
    rcases h with rfl | rfl | rfl
    · exact absurd hdelimiter (by decide)
    · exact absurd hcontrol (by decide)
    · exact absurd hcontrol (by decide)

end BaseUrl

theorem validateTarget_ok_iff {target : Text} : validateTarget target = .ok () ↔
    target.head? = some '/' ∧ ¬schemeSeparator <:+: target ∧ '#' ∉ target ∧ '\r' ∉ target ∧
      '\n' ∉ target := by
  unfold validateTarget
  split
  next h =>
    refine ⟨fun hfalse => (by cases hfalse), ?_⟩
    rintro ⟨hhead, hscheme, hhash, hcr, hlf⟩
    rcases h with h | h | h | h | h
    · exact absurd hhead h
    · exact absurd (of_decide_eq_true h) hscheme
    · exact absurd h hhash
    · exact absurd h hcr
    · exact absurd h hlf
  next h =>
    simp only [not_or, ne_eq, not_not] at h
    obtain ⟨hhead, hscheme, hhash, hcr, hlf⟩ := h
    exact ⟨fun _ => ⟨hhead, fun hin => hscheme (decide_eq_true hin), hhash, hcr, hlf⟩, fun _ => rfl⟩

theorem splitAbsolute_append (base : BaseUrl) {target : Text} (h : validateTarget target = .ok ()) :
    BaseUrl.splitAbsolute (base.text ++ target) = some (.ok (base, target)) := by
  obtain ⟨hhead, _, hhash, hcr, hlf⟩ := validateTarget_ok_iff.mp h
  obtain ⟨rest, rfl⟩ := List.head?_eq_some_iff.mp hhead
  have hclean : ¬('#' ∈ base.text ++ '/' :: rest ∨ '\r' ∈ base.text ++ '/' :: rest ∨
      '\n' ∈ base.text ++ '/' :: rest) := by
    simp only [List.mem_append, not_or]
    exact ⟨⟨base.not_mem_text (Or.inl rfl), hhash⟩,
      ⟨base.not_mem_text (Or.inr (Or.inl rfl)), hcr⟩,
      base.not_mem_text (Or.inr (Or.inr rfl)), hlf⟩
  have hparse : BaseUrl.parse (base.text ++ '/' :: rest) = some (.ok base) :=
    base.parse_append fun c hc => by
      cases hc
      rfl
  have htarget : targetOf ('/' :: rest) = '/' :: rest := by simp [targetOf]
  unfold BaseUrl.splitAbsolute
  rw [if_neg hclean, hparse]
  dsimp only
  rw [sliceFrom_append]
  dsimp only
  rw [htarget, h]

theorem sliceFrom_origin (base : BaseUrl) {scheme authority : Text}
    (hbase : base.text = scheme.asciiLowercase ++ schemeSeparator ++ authority) (rest : Text) :
    sliceFrom (scheme ++ schemeSeparator ++ authority ++ rest) base.text.byteLength = some rest := by
  have hlength : base.text.byteLength = byteLength (scheme ++ schemeSeparator ++ authority) := by
    rw [hbase]
    simp
  rw [hlength]
  exact sliceFrom_append _ rest

structure Splits (value : Text) (base : BaseUrl) (target : Text) : Prop where
  parts : ∃ scheme authority rest, value = scheme ++ schemeSeparator ++ authority ++ rest ∧
    (scheme.asciiLowercase = httpScheme ∨ scheme.asciiLowercase = httpsScheme) ∧
    Authority authority ∧ base.text = scheme.asciiLowercase ++ schemeSeparator ++ authority ∧
    target = targetOf rest
  valid : validateTarget target = .ok ()

theorem splitAbsolute_ok {value target : Text} {base : BaseUrl}
    (h : BaseUrl.splitAbsolute value = some (.ok (base, target))) : Splits value base target := by
  unfold BaseUrl.splitAbsolute at h
  split at h
  next => cases h
  next =>
    split at h
    next => cases h
    next => cases h
    next hparse =>
      split at h
      next => cases h
      next hslice =>
        split at h
        next => cases h
        next hvalid =>
          cases h
          obtain ⟨scheme, authority, _, rfl, hscheme, hauthority, _, hbase⟩ :=
            BaseUrl.parse_ok hparse
          rw [sliceFrom_origin base hbase] at hslice
          cases hslice
          exact ⟨⟨scheme, authority, _, rfl, hscheme, hauthority, hbase, rfl⟩, hvalid⟩

theorem splitAbsolute_total (value : Text) :
    ∃ result, BaseUrl.splitAbsolute value = some result := by
  unfold BaseUrl.splitAbsolute
  split
  · exact ⟨_, rfl⟩
  · split
    next hparse =>
      obtain ⟨result, hresult⟩ := BaseUrl.parse_total value
      rw [hparse] at hresult
      cases hresult
    next => exact ⟨_, rfl⟩
    next base hparse =>
      obtain ⟨_, _, _, rfl, _, _, _, hbase⟩ := BaseUrl.parse_ok hparse
      rw [sliceFrom_origin base hbase]
      dsimp only
      split
      · exact ⟨_, rfl⟩
      · exact ⟨_, rfl⟩

namespace DownloadSource

theorem parse_total (value : Text) : ∃ result, parse value = some result := by
  obtain ⟨result, hresult⟩ := splitAbsolute_total value
  unfold parse
  rw [hresult]
  cases result with
  | error | ok => exact ⟨_, rfl⟩

theorem parse_ok {value : Text} {source : DownloadSource} (h : parse value = some (.ok source)) :
    Splits value source.baseUrl source.target := by
  unfold parse at h
  split at h
  next => cases h
  next => cases h
  next hsplit =>
    cases h
    exact splitAbsolute_ok hsplit

theorem parse_absoluteUrl {source : DownloadSource} (h : validateTarget source.target = .ok ()) :
    parse source.absoluteUrl = some (.ok source) := by
  unfold parse absoluteUrl
  rw [splitAbsolute_append source.baseUrl h]

def PlainSuffix (suffix : Text) : Prop :=
  '/' ∉ suffix ∧ '#' ∉ suffix ∧ '\r' ∉ suffix ∧ '\n' ∉ suffix

theorem validateTarget_withSuffix {source : DownloadSource}
    (h : validateTarget source.target = .ok ()) {suffix : Text} (hsuffix : PlainSuffix ('.' :: suffix)) :
    validateTarget (source.withSuffix ('.' :: suffix)).target = .ok () := by
  obtain ⟨hhead, hscheme, hhash, hcr, hlf⟩ := validateTarget_ok_iff.mp h
  obtain ⟨hslash, hsuffixHash, hsuffixCr, hsuffixLf⟩ := hsuffix
  have hplain : ¬schemeSeparator <:+: suffix := fun hin =>
    hslash (List.mem_cons_of_mem _ (hin.subset (by decide)))
  unfold withSuffix
  split
  next =>
    refine validateTarget_ok_iff.mpr ⟨?_, fun hin => ?_, ?_, ?_, ?_⟩
    · rw [List.head?_append, hhead]
      rfl
    · rcases infix_append_cons (by decide) hin with hpath | hrest
      · exact hscheme hpath
      · exact hplain hrest
    · exact fun hmem => (List.mem_append.mp hmem).elim hhash hsuffixHash
    · exact fun hmem => (List.mem_append.mp hmem).elim hcr hsuffixCr
    · exact fun hmem => (List.mem_append.mp hmem).elim hlf hsuffixLf
  next path query hsplit =>
    have htarget : source.target = path ++ '?' :: query := by
      rw [splitOnce_some hsplit, List.append_assoc]
      rfl
    rw [htarget] at hhead hscheme hhash hcr hlf
    have hsplitMem : ∀ c, c ∉ path ++ '?' :: query → c ∉ path ∧ c ∉ query := fun c hc =>
      ⟨fun hmem => hc (List.mem_append_left _ hmem),
        fun hmem => hc (List.mem_append_right _ (List.mem_cons_of_mem _ hmem))⟩
    have hkeeps : ∀ c, c ≠ '?' → c ∉ path ++ '?' :: query → c ∉ '.' :: suffix →
        c ∉ path ++ '.' :: suffix ++ '?' :: query := by
      intro c hne hold hnew hmem
      rcases List.mem_append.mp hmem with hmem | hmem
      · exact (List.mem_append.mp hmem).elim (hsplitMem c hold).1 hnew
      · exact (List.mem_cons.mp hmem).elim hne (hsplitMem c hold).2
    refine validateTarget_ok_iff.mpr ⟨?_, fun hin => ?_, hkeeps _ (by decide) hhash hsuffixHash,
      hkeeps _ (by decide) hcr hsuffixCr, hkeeps _ (by decide) hlf hsuffixLf⟩
    · cases path with
      | nil => cases hhead
      | cons =>
        cases hhead
        rfl
    · rcases infix_append_cons (by decide) hin with hpath | hquery
      · rcases infix_append_cons (by decide) hpath with hpath | hrest
        · exact hscheme (hpath.trans (List.prefix_append path _).isInfix)
        · exact hplain hrest
      · exact hscheme (hquery.trans ((List.suffix_cons '?' query).trans
          (List.suffix_append path _)).isInfix)

theorem validateTarget_checksum {source derived : DownloadSource}
    (h : validateTarget source.target = .ok ())
    (hderived : derived ∈ source.legacyDirectChecksumSources) :
    validateTarget derived.target = .ok () := by
  rcases List.mem_cons.mp hderived with rfl | hderived
  · have hplain : PlainSuffix ('.' :: "md5".toList) := by
      unfold PlainSuffix
      decide
    exact validateTarget_withSuffix h hplain
  · obtain rfl := List.mem_singleton.mp hderived
    have hplain : PlainSuffix ('.' :: "md5sum".toList) := by
      unfold PlainSuffix
      decide
    exact validateTarget_withSuffix h hplain

end DownloadSource

structure WellSplit (source : DownloadSource) : Prop where
  origin : ∃ scheme authority, (scheme = httpScheme ∨ scheme = httpsScheme) ∧ Authority authority ∧
    source.baseUrl.text = scheme ++ schemeSeparator ++ authority
  reparsed : DownloadSource.parse source.absoluteUrl = some (.ok source)

/-- The absolute URL is the accepted text with its scheme in lower case and a slash before an empty
path. -/
def Lossless (value : Text) (source : DownloadSource) : Prop :=
  ∃ scheme authority rest, value = scheme ++ schemeSeparator ++ authority ++ rest ∧
    (scheme.asciiLowercase = httpScheme ∨ scheme.asciiLowercase = httpsScheme) ∧
    Authority authority ∧
    source.absoluteUrl = scheme.asciiLowercase ++ schemeSeparator ++ authority ++
      if rest = [] ∨ rest.head? = some '?' then '/' :: rest else rest

theorem targetOf_eq (rest : Text) :
    targetOf rest = if rest = [] ∨ rest.head? = some '?' then '/' :: rest else rest := by
  unfold targetOf
  by_cases hnil : rest = []
  · rw [if_pos hnil, if_pos (Or.inl hnil), hnil]
  · by_cases hquery : rest.head? = some '?'
    · rw [if_neg hnil, if_pos hquery, if_pos (Or.inr hquery)]
    · rw [if_neg hnil, if_neg hquery, if_neg (not_or.mpr ⟨hnil, hquery⟩)]

theorem Splits.lossless {value : Text} {source : DownloadSource}
    (h : Splits value source.baseUrl source.target) : Lossless value source := by
  obtain ⟨scheme, authority, rest, hvalue, hscheme, hauthority, hbase, htarget⟩ := h.parts
  refine ⟨scheme, authority, rest, hvalue, hscheme, hauthority, ?_⟩
  unfold DownloadSource.absoluteUrl
  rw [hbase, htarget, targetOf_eq]

theorem wellSplit_of_valid {source : DownloadSource} (h : validateTarget source.target = .ok ()) :
    WellSplit source := ⟨source.baseUrl.origin, DownloadSource.parse_absoluteUrl h⟩

/-- A request whose URL is split where it was joined: at the client's origin and the built target. -/
def SplitsAs (baseUrl : BaseUrl) (endpoint parameters : Text) (request : HttpRequest) : Prop :=
  buildTarget endpoint parameters = .ok request.target ∧
    BaseUrl.splitAbsolute request.absoluteUrl = some (.ok (baseUrl, request.target))

theorem splitsAs_request {τ σ : Type} {client : HttpClient τ σ} {endpoint parameters : Text}
    {request : HttpRequest} (h : client.request endpoint parameters = .ok request) :
    SplitsAs client.baseUrl endpoint parameters request := by
  obtain ⟨hbase, hbuild⟩ := HttpClient.request_ok h
  refine ⟨hbuild, ?_⟩
  rw [request.absolute, hbase]
  exact splitAbsolute_append client.baseUrl request.valid

/-- Every accepted URL is split losslessly, with the checksum sources derived from it, and so is
every URL that a client hands to its transport. -/
theorem absolute_urls_split_losslessly {τ σ φ : Type} (codec : CacheCodec) (store : CacheStore σ)
    (transport : Transport τ) (writeAtomic : ByteArray → Fallible φ FileSystemError Unit)
    (client : HttpClient τ σ) (files : φ) (endpoint parameters : Text) :
    (∀ value, (∃ result, DownloadSource.parse value = some result) ∧
      ∀ source, DownloadSource.parse value = some (.ok source) →
        Lossless value source ∧ WellSplit source ∧
          ∀ derived ∈ source.legacyDirectChecksumSources, WellSplit derived) ∧
    (∀ now policy, ∀ request ∈ (HttpClient.get codec store (HttpClient.recording transport) now
        endpoint parameters policy client.recorded).2.handed,
      SplitsAs client.baseUrl endpoint parameters request) ∧
    ∀ maxBytes, ∀ request ∈ (HttpClient.download (HttpClient.recording transport) writeAtomic
        endpoint parameters maxBytes (client.recorded, files)).2.1.handed,
      SplitsAs client.baseUrl endpoint parameters request := by
  refine ⟨fun value => ⟨DownloadSource.parse_total value, fun source hsource => ?_⟩,
    fun now policy request hrequest => ?_, fun maxBytes request hrequest => ?_⟩
  · have hsplits := DownloadSource.parse_ok hsource
    refine ⟨hsplits.lossless, wellSplit_of_valid hsplits.valid, fun derived hderived => ?_⟩
    exact wellSplit_of_valid (DownloadSource.validateTarget_checksum hsplits.valid hderived)
  · rcases HttpClient.handed_get codec store transport now endpoint parameters policy
      client.recorded with hnone | ⟨sent, hsent, hhanded⟩
    · rw [hnone] at hrequest
      cases hrequest
    · rw [hhanded] at hrequest
      obtain rfl := List.mem_singleton.mp hrequest
      exact splitsAs_request hsent
  · rcases HttpClient.handed_download transport writeAtomic endpoint parameters maxBytes
      client.recorded files with hnone | ⟨sent, hsent, hhanded⟩
    · rw [hnone] at hrequest
      cases hrequest
    · rw [hhanded] at hrequest
      obtain rfl := List.mem_singleton.mp hrequest
      exact splitsAs_request hsent

def bareQueryUrl : Text := "HTTPS://Example.com?x=1".toList

def answersNothing : Transport Unit := fun _ _ => Fallible.fail .requestFailed

def releaseClient (baseUrl : BaseUrl) : HttpClient Unit Unit := ⟨baseUrl, (), none, 1, none⟩

def noStore : CacheStore Unit := ⟨fun _ _ => pure none, fun _ _ => pure (), fun _ => pure (), pure ()⟩

theorem bare_query_url_split :
    ∃ source, DownloadSource.parse bareQueryUrl = some (.ok source) ∧
      source.absoluteUrl = "https://Example.com/?x=1".toList ∧ Lossless bareQueryUrl source ∧
        WellSplit source := by
  have hparse : ((DownloadSource.parse bareQueryUrl).map fun result =>
      result.toOption.map DownloadSource.absoluteUrl) =
        some (some "https://Example.com/?x=1".toList) := by decide +kernel
  obtain ⟨result, hresult, habsolute⟩ := Option.map_eq_some_iff.mp hparse
  cases result with
  | error => cases habsolute
  | ok source =>
    have hsplit := ((absolute_urls_split_losslessly ⟨id, fun _ => none, fun _ => none⟩ noStore answersNothing
      (fun _ => (pure () : Fallible Unit FileSystemError Unit)) (releaseClient source.baseUrl) ()
      [] []).1 bareQueryUrl).2 source hresult
    exact ⟨source, hresult, Option.some.inj habsolute, hsplit.1, hsplit.2.1⟩

end Nexus
