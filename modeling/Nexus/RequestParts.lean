import Nexus.AbsoluteUrls
import Nexus.PlainText

namespace Nexus

open Text

inductive Scheme where
  | http
  | https
  deriving DecidableEq

def Scheme.text : Scheme → Text
  | .http => httpScheme
  | .https => httpsScheme

def Scheme.defaultPort : Scheme → Fin (2 ^ 16)
  | .http => 80
  | .https => 443

structure ParsedRequest where
  scheme : Scheme
  host : Text
  port : Fin (2 ^ 16)
  target : Text
  deriving DecidableEq

def parsePort (value : Text) : Except TransportError (Fin (2 ^ 16)) :=
  if value = [] ∨ value.bytes.all isAsciiDigit = false then .error .requestFailed
  else
    match parseUnsigned (2 ^ 16) (String.ofList value) with
    | none => .error .requestFailed
    | some port => if port = 0 then .error .requestFailed else .ok port

def parseSuffix (suffix : Text) (defaultPort : Fin (2 ^ 16)) :
    Except TransportError (Fin (2 ^ 16)) :=
  match suffix with
  | [] => .ok defaultPort
  | c :: portText => if c = ':' then parsePort portText else .error .requestFailed

/-- The branch of `parse_authority` behind an opening bracket; `none` is a panic. -/
def parseBracketed (bracketed : Text) (defaultPort : Fin (2 ^ 16)) :
    Option (Except TransportError (Text × Fin (2 ^ 16))) :=
  match find (fun c => c = ']') bracketed with
  | none => some (.error .requestFailed)
  | some close =>
    match bracketed.sliceTo close, bracketed.sliceFrom (close + 1) with
    | some host, some suffix => some ((parseSuffix suffix defaultPort).map fun port => (host, port))
    | _, _ => none

def parseUnbracketed (authority : Text) (defaultPort : Fin (2 ^ 16)) :
    Except TransportError (Text × Fin (2 ^ 16)) :=
  if 1 < authority.count ':' then .error .requestFailed
  else
    match rsplitOnce ':' authority with
    | some (host, portText) => (parsePort portText).map fun port => (host, port)
    | none => .ok (authority, defaultPort)

def notInHost (c : Char) : Bool :=
  isDelimiter c ∨ c = '@' ∨ c = '\x00' ∨ c = '[' ∨ c = ']'

def checkHost (parts : Text × Fin (2 ^ 16)) : Except TransportError (Text × Fin (2 ^ 16)) :=
  if parts.1 = [] ∨ parts.1.any notInHost = true then .error .requestFailed else .ok parts

/-- The host and the port of an authority; `none` is a panic. -/
def parseAuthority (authority : Text) (defaultPort : Fin (2 ^ 16)) :
    Option (Except TransportError (Text × Fin (2 ^ 16))) :=
  if authority = [] ∨ authority.any (fun c => isDelimiter c ∨ c = '@' ∨ c = '\x00') = true ∨
      authority.any isWhiteSpace = true ∨ authority.any isControl = true then
    some (.error .requestFailed)
  else
    let parts := if authority.head? = some '[' then parseBracketed authority.tail defaultPort
      else some (parseUnbracketed authority defaultPort)
    parts.map fun parts => parts.bind checkHost

def validateWireTarget (target : Text) : Except TransportError Unit :=
  if target.head? ≠ some '/' ∨ target.contains schemeSeparator = true ∨ '#' ∈ target ∨
      '\x00' ∈ target ∨ target.any isControl = true then
    .error .requestFailed
  else .ok ()

def parseScheme (schemeText : Text) : Option Scheme :=
  if schemeText = httpScheme then some .http
  else if schemeText = httpsScheme then some .https
  else none

/-- The parts of a request; `none` is a panic. -/
def parseRequestParts (baseUrl target : Text) : Option (Except TransportError ParsedRequest) :=
  match splitOnce schemeSeparator baseUrl with
  | none => some (.error .requestFailed)
  | some (schemeText, authority) =>
    match parseScheme schemeText with
    | none => some (.error .requestFailed)
    | some scheme =>
      match parseAuthority authority scheme.defaultPort with
      | none => none
      | some (.error error) => some (.error error)
      | some (.ok (host, port)) =>
        match validateWireTarget target with
        | .error error => some (.error error)
        | .ok () => some (.ok ⟨scheme, host, port, target⟩)

def ParsedRequest.fromRequest (request : HttpRequest) :
    Option (Except TransportError ParsedRequest) :=
  parseRequestParts request.baseUrl.text request.target

structure Host (host : Text) : Prop where
  nonempty : host ≠ []
  chars : ∀ c ∈ host, isDelimiter c = false ∧ c ≠ '@' ∧ c ≠ '[' ∧ c ≠ ']' ∧
    isWhiteSpace c = false ∧ isControl c = false

/-- A decimal numeral of a port. -/
structure Numeral (digits : Text) (port : Fin (2 ^ 16)) : Prop where
  nonempty : digits ≠ []
  decimal : digits.all Char.isDigit = true
  value : Nat.ofDigitChars 10 digits 0 = port.val
  positive : port ≠ 0

def WritesHost (host written : Text) : Prop :=
  (':' ∉ host ∧ written = host) ∨ written = '[' :: host ++ [']']

/-- How a port is written: not at all when it is the default, or as a numeral. -/
def WritesPort (defaultPort port : Fin (2 ^ 16)) (written : Text) : Prop :=
  (written = [] ∧ port = defaultPort) ∨ ∃ digits, written = ':' :: digits ∧ Numeral digits port

def WritesAuthority (defaultPort : Fin (2 ^ 16)) (host : Text) (port : Fin (2 ^ 16))
    (authority : Text) : Prop :=
  Host host ∧ ∃ writtenHost writtenPort, authority = writtenHost ++ writtenPort ∧
    WritesHost host writtenHost ∧ WritesPort defaultPort port writtenPort

theorem parseUnsigned_digits {bound : Nat} {digits : Text} (hne : digits ≠ [])
    (hall : digits.all Char.isDigit = true) : parseUnsigned bound (String.ofList digits) =
      if h : Nat.ofDigitChars 10 digits 0 < bound then some ⟨Nat.ofDigitChars 10 digits 0, h⟩
      else none := by
  have hplus : digits.head? ≠ some '+' := by
    intro hhead
    have hdigit := List.all_eq_true.mp hall '+' (List.mem_of_mem_head? hhead)
    revert hdigit
    decide
  unfold parseUnsigned
  simp only [String.toList_ofList, if_neg hplus]
  rw [if_pos ⟨hne, hall⟩]

variable {port : Fin (2 ^ 16)}

theorem parsePort_ok_iff {value : Text} : parsePort value = .ok port ↔ Numeral value port := by
  unfold parsePort
  rw [all_isAsciiDigit]
  constructor
  · intro h
    split at h
    next => cases h
    next hvalid =>
      rw [not_or, Bool.not_eq_false] at hvalid
      rw [parseUnsigned_digits hvalid.1 hvalid.2] at h
      split at h
      next => cases h
      next hfound =>
        split at hfound
        next =>
          cases hfound
          split at h
          next => cases h
          next hpositive =>
            cases h
            exact ⟨hvalid.1, hvalid.2, rfl, hpositive⟩
        next => cases hfound
  · rintro ⟨hne, hall, hvalue, hpositive⟩
    have hlt : Nat.ofDigitChars 10 value 0 < 2 ^ 16 := by
      rw [hvalue]
      exact port.isLt
    have hport : (⟨Nat.ofDigitChars 10 value 0, hlt⟩ : Fin (2 ^ 16)) = port := Fin.ext hvalue
    rw [if_neg (by simp [hne, hall]), parseUnsigned_digits hne hall, dif_pos hlt, hport]
    simp [hpositive]

theorem parseSuffix_ok_iff {suffix : Text} {defaultPort : Fin (2 ^ 16)} :
    parseSuffix suffix defaultPort = .ok port ↔ WritesPort defaultPort port suffix := by
  unfold parseSuffix WritesPort
  cases suffix with
  | nil => simp [eq_comm]
  | cons c =>
    by_cases hc : c = ':'
    · subst hc
      simpa using parsePort_ok_iff
    · simp [hc]

theorem Numeral.no_colon {digits : Text} (h : Numeral digits port) : ':' ∉ digits := by
  intro hmem
  have hdigit := List.all_eq_true.mp h.decimal ':' hmem
  revert hdigit
  decide

theorem append_cons_inj {c : Char} {front back front' back' : Text} (h : c ∉ front)
    (h' : c ∉ front') (heq : front ++ c :: back = front' ++ c :: back') :
    front = front' ∧ back = back' := by
  have hfirst : splitOnce [c] (front ++ [c] ++ back) = some (front, back) :=
    splitOnce_of_first h back
  have hother : splitOnce [c] (front' ++ [c] ++ back') = some (front', back') :=
    splitOnce_of_first h' back'
  simp only [List.append_assoc, List.cons_append, List.nil_append] at hfirst hother
  rw [heq, hother] at hfirst
  cases hfirst
  exact ⟨rfl, rfl⟩

theorem parseBracketed_spec (bracketed : Text) (defaultPort : Fin (2 ^ 16)) :
    ∃ result, parseBracketed bracketed defaultPort = some result ∧
      ∀ host port, result = .ok (host, port) ↔ ']' ∉ host ∧
        ∃ suffix, bracketed = host ++ ']' :: suffix ∧ WritesPort defaultPort port suffix := by
  unfold parseBracketed
  by_cases hclose : ']' ∈ bracketed
  · obtain ⟨front, suffix, rfl, hfront⟩ := List.eq_append_cons_of_mem hclose
    have hfind : find (fun c => c = ']') (front ++ ']' :: suffix) = some (byteLength front) := by
      refine find_append (fun x hx => ?_) (by simp) suffix
      exact decide_eq_false fun h => hfront (h ▸ hx)
    have hback : sliceFrom (front ++ ']' :: suffix) (byteLength front + 1) = some suffix := by
      have hslice := sliceFrom_append (front ++ [']']) suffix
      rw [List.append_assoc, byteLength_append] at hslice
      exact hslice
    rw [hfind]
    dsimp only
    rw [sliceTo_append, hback]
    refine ⟨_, rfl, fun host port => ?_⟩
    constructor
    · intro h
      cases hfound : parseSuffix suffix defaultPort with
      | error =>
        rw [hfound] at h
        cases h
      | ok =>
        rw [hfound] at h
        cases h
        exact ⟨hfront, suffix, rfl, parseSuffix_ok_iff.mp hfound⟩
    · rintro ⟨hhost, other, heq, hport⟩
      obtain ⟨rfl, rfl⟩ := append_cons_inj hfront hhost heq
      rw [parseSuffix_ok_iff.mpr hport]
      rfl
  · have hnone : find (fun c => c = ']') bracketed = none :=
      find_eq_none fun x hx => decide_eq_false fun h : x = ']' => hclose (h ▸ hx)
    rw [hnone]
    refine ⟨_, rfl, fun host port => ⟨fun h => (by cases h), ?_⟩⟩
    rintro ⟨_, suffix, rfl, _⟩
    exact absurd (List.mem_append_right _ List.mem_cons_self) hclose

variable {authority host : Text}

theorem parseUnbracketed_ok_iff {defaultPort : Fin (2 ^ 16)} :
    parseUnbracketed authority defaultPort = .ok (host, port) ↔
      ':' ∉ host ∧ ∃ suffix, authority = host ++ suffix ∧ WritesPort defaultPort port suffix := by
  unfold parseUnbracketed
  constructor
  · intro h
    split at h
    next => cases h
    next hcount =>
      by_cases hcolon : ':' ∈ authority
      · -- The only colon is both the first and the last one.
        obtain ⟨_, back, rfl, hfront⟩ := List.eq_append_cons_of_mem hcolon
        have hback : ':' ∉ back := by
          intro hmem
          have hpos := List.count_pos_iff.mpr hmem
          rw [List.count_append, List.count_cons_self] at hcount
          omega
        rw [rsplitOnce_of_last hback] at h
        dsimp only at h
        cases hport : parsePort back with
        | error =>
          rw [hport] at h
          cases h
        | ok =>
          rw [hport] at h
          cases h
          exact ⟨hfront, _, rfl, .inr ⟨back, rfl, parsePort_ok_iff.mp hport⟩⟩
      · rw [rsplitOnce_eq_none hcolon] at h
        cases h
        exact ⟨hcolon, [], (List.append_nil _).symm, .inl ⟨rfl, rfl⟩⟩
  · rintro ⟨hhost, _, rfl, ⟨rfl, rfl⟩ | ⟨digits, rfl, hport⟩⟩
    · rw [List.append_nil, List.count_eq_zero.mpr hhost, rsplitOnce_eq_none hhost]
      rfl
    · have hcount : (host ++ ':' :: digits).count ':' = 1 := by
        rw [List.count_append, List.count_cons_self, List.count_eq_zero.mpr hhost,
          List.count_eq_zero.mpr hport.no_colon]
      rw [if_neg (by omega), rsplitOnce_of_last hport.no_colon]
      dsimp only
      rw [parsePort_ok_iff.mpr hport]
      rfl

theorem bind_checkHost_ok_iff {result : Except TransportError (Text × Fin (2 ^ 16))} :
    result.bind checkHost = .ok (host, port) ↔
      result = .ok (host, port) ∧ host ≠ [] ∧ ∀ c ∈ host, notInHost c = false := by
  cases result with
  | error => exact ⟨fun h => (by cases h), fun h => (by cases h.1)⟩
  | ok parts =>
    show checkHost parts = _ ↔ _
    unfold checkHost
    constructor
    · intro h
      split at h
      next => cases h
      next hhost =>
        cases h
        exact ⟨rfl, by simpa using hhost⟩
    · rintro ⟨heq, hne, hchars⟩
      cases heq
      rw [if_neg (by simpa [hne] using hchars)]

theorem notInHost_eq_false {c : Char} : notInHost c = false ↔
    isDelimiter c = false ∧ c ≠ '@' ∧ c ≠ '\x00' ∧ c ≠ '[' ∧ c ≠ ']' := by
  unfold notInHost
  rw [decide_eq_false_iff_not]
  simp

theorem Host.notInHost (h : Host host) : ∀ c ∈ host, notInHost c = false := by
  intro c hc
  obtain ⟨hdelimiter, hat, hopen, hclose, _, hcontrol⟩ := h.chars c hc
  refine notInHost_eq_false.mpr ⟨hdelimiter, hat, ?_, hopen, hclose⟩
  rintro rfl
  exact absurd hcontrol (by decide)

theorem Host.of_authority (h : Authority authority) (hsub : ∀ c ∈ host, c ∈ authority)
    (hne : host ≠ []) (hchars : ∀ c ∈ host, Nexus.notInHost c = false) : Host host := by
  refine ⟨hne, fun c hc => ?_⟩
  obtain ⟨hdelimiter, hat, _, hopen, hclose⟩ := notInHost_eq_false.mp (hchars c hc)
  obtain ⟨_, _, hspace, hcontrol⟩ := h.chars c (hsub c hc)
  exact ⟨hdelimiter, hat, hopen, hclose, hspace, hcontrol⟩

/-- An authority of a validated origin is read without a panic, and the host and the port that are
read are those that it writes. -/
theorem parseAuthority_spec (h : Authority authority) (defaultPort : Fin (2 ^ 16)) :
    ∃ result, parseAuthority authority defaultPort = some result ∧
      ∀ host port, result = .ok (host, port) ↔ WritesAuthority defaultPort host port authority := by
  have hchars : ¬(authority = [] ∨
      authority.any (fun c => isDelimiter c ∨ c = '@' ∨ c = '\x00') = true ∨
      authority.any isWhiteSpace = true ∨ authority.any isControl = true) := by
    rintro (hempty | hdelimiter | hspace | hcontrol)
    · exact h.nonempty hempty
    · obtain ⟨c, hc, hbad⟩ := List.any_eq_true.mp hdelimiter
      rcases of_decide_eq_true hbad with hbad | rfl | rfl
      · rw [(h.chars c hc).1] at hbad
        cases hbad
      · exact (h.chars _ hc).2.1 rfl
      · exact absurd (h.chars _ hc).2.2.2 (by decide)
    · obtain ⟨c, hc, hbad⟩ := List.any_eq_true.mp hspace
      rw [(h.chars c hc).2.2.1] at hbad
      cases hbad
    · obtain ⟨c, hc, hbad⟩ := List.any_eq_true.mp hcontrol
      rw [(h.chars c hc).2.2.2] at hbad
      cases hbad
  unfold parseAuthority
  rw [if_neg hchars]
  by_cases hbracket : authority.head? = some '['
  · obtain ⟨bracketed, rfl⟩ := List.head?_eq_some_iff.mp hbracket
    obtain ⟨result, hresult, hspec⟩ := parseBracketed_spec bracketed defaultPort
    refine ⟨result.bind checkHost, by simp [hresult], fun host port => ?_⟩
    rw [bind_checkHost_ok_iff, hspec]
    constructor
    · rintro ⟨⟨_, suffix, rfl, hport⟩, hne, hhost⟩
      refine ⟨.of_authority h (fun c hc => by simp [hc]) hne hhost, '[' :: host ++ [']'], suffix,
        by simp, .inr rfl, hport⟩
    · rintro ⟨hhost, written, suffix, heq, ⟨_, hwritten⟩ | rfl, hport⟩
      · -- A host does not start with a bracket.
        cases host with
        | nil => exact absurd rfl hhost.nonempty
        | cons c =>
          rw [hwritten, List.cons_append, List.cons.injEq] at heq
          exact absurd heq.1.symm (hhost.chars c List.mem_cons_self).2.2.1
      · have hclose : ']' ∉ host := fun hmem => (hhost.chars _ hmem).2.2.2.1 rfl
        rw [List.cons_append, List.cons_append, List.cons.injEq] at heq
        refine ⟨⟨hclose, suffix, ?_, hport⟩, hhost.nonempty, hhost.notInHost⟩
        rw [heq.2]
        simp
  · refine ⟨(parseUnbracketed authority defaultPort).bind checkHost, by simp [hbracket],
      fun host port => ?_⟩
    rw [bind_checkHost_ok_iff, parseUnbracketed_ok_iff]
    constructor
    · rintro ⟨⟨hcolon, suffix, rfl, hport⟩, hne, hhost⟩
      exact ⟨.of_authority h (fun c hc => by simp [hc]) hne hhost, host, suffix, rfl,
        .inl ⟨hcolon, rfl⟩, hport⟩
    · rintro ⟨hhost, _, suffix, rfl, ⟨hcolon, rfl⟩ | rfl, hport⟩
      · exact ⟨⟨hcolon, suffix, rfl, hport⟩, hhost.nonempty, hhost.notInHost⟩
      · exact absurd rfl hbracket

theorem validateWireTarget_ok_iff {target : Text} (h : validateTarget target = .ok ()) :
    validateWireTarget target = .ok () ↔ ∀ c ∈ target, isControl c = false := by
  obtain ⟨hhead, hscheme, hhash, _, _⟩ := validateTarget_ok_iff.mp h
  unfold validateWireTarget
  constructor
  · intro hok c hc
    split at hok
    next => cases hok
    next hvalid =>
      simp only [not_or, List.any_eq_true, not_exists, not_and, Bool.not_eq_true] at hvalid
      exact hvalid.2.2.2.2 c hc
  · intro hcontrol
    have hnull : '\x00' ∉ target := fun hmem => absurd (hcontrol _ hmem) (by decide)
    have hany : target.any isControl = false := by simpa using hcontrol
    have hcontains : target.contains schemeSeparator = false := decide_eq_false hscheme
    rw [if_neg]
    simp only [hhead, hcontains, hhash, hnull, hany]
    simp

theorem parseScheme_eq_some {schemeText : Text} {scheme : Scheme} :
    parseScheme schemeText = some scheme ↔ schemeText = scheme.text := by
  unfold parseScheme
  constructor
  · intro h
    split at h
    next heq =>
      cases h
      exact heq
    next =>
      split at h
      next heq =>
        cases h
        exact heq
      next => cases h
  · rintro rfl
    cases scheme <;> rfl

theorem Scheme.no_colon (scheme : Scheme) : ':' ∉ scheme.text := by
  cases scheme <;> decide

theorem splitOnce_origin (baseUrl : BaseUrl) : ∃ scheme authority, Authority authority ∧
    baseUrl.text = Scheme.text scheme ++ schemeSeparator ++ authority ∧
    splitOnce schemeSeparator baseUrl.text = some (scheme.text, authority) := by
  obtain ⟨schemeText, authority, hscheme, hauthority, htext⟩ := baseUrl.origin
  obtain ⟨scheme, rfl⟩ : ∃ scheme, schemeText = Scheme.text scheme := by
    rcases hscheme with rfl | rfl
    · exact ⟨.http, rfl⟩
    · exact ⟨.https, rfl⟩
  refine ⟨scheme, authority, hauthority, htext, ?_⟩
  rw [htext]
  exact splitOnce_of_first scheme.no_colon authority

theorem scheme_authority_inj {scheme scheme' : Scheme} {authority' : Text}
    (h : scheme.text ++ schemeSeparator ++ authority =
      scheme'.text ++ schemeSeparator ++ authority') :
    scheme = scheme' ∧ authority = authority' := by
  rw [List.append_assoc, List.append_assoc] at h
  obtain ⟨htext, hrest⟩ := append_cons_inj scheme.no_colon scheme'.no_colon h
  refine ⟨?_, List.append_cancel_left hrest⟩
  have hscheme := parseScheme_eq_some.mpr htext
  rw [parseScheme_eq_some.mpr rfl] at hscheme
  exact Option.some.inj hscheme

structure Writes (request : HttpRequest) (parsed : ParsedRequest) : Prop where
  clean : ∀ c ∈ request.target, isControl c = false
  target : parsed.target = request.target
  url : ∃ authority, request.absoluteUrl =
      parsed.scheme.text ++ schemeSeparator ++ authority ++ parsed.target ∧
    WritesAuthority parsed.scheme.defaultPort parsed.host parsed.port authority

theorem ParsedRequest.fromRequest_spec (request : HttpRequest) :
    ∃ result, fromRequest request = some result ∧
      ∀ parsed, result = .ok parsed ↔ Writes request parsed := by
  obtain ⟨scheme, authority, hauthority, htext, hsplit⟩ := splitOnce_origin request.baseUrl
  obtain ⟨parts, hparts, hspec⟩ := parseAuthority_spec hauthority scheme.defaultPort
  have htarget := validateWireTarget_ok_iff request.valid
  -- The URL determines the scheme and the authority.
  have hurl : ∀ parsed, Writes request parsed → parsed.scheme = scheme ∧
      WritesAuthority scheme.defaultPort parsed.host parsed.port authority := by
    rintro parsed ⟨_, hsame, authority', habsolute, hwrites⟩
    rw [request.absolute, hsame, htext] at habsolute
    obtain ⟨rfl, rfl⟩ := scheme_authority_inj (List.append_cancel_right habsolute)
    exact ⟨rfl, hwrites⟩
  unfold fromRequest parseRequestParts
  rw [hsplit]
  dsimp only
  rw [parseScheme_eq_some.mpr rfl]
  dsimp only
  rw [hparts]
  cases parts with
  | error =>
    refine ⟨_, rfl, fun parsed => ⟨fun h => (by cases h), fun h => ?_⟩⟩
    have hok := (hspec parsed.host parsed.port).mpr (hurl parsed h).2
    cases hok
  | ok found =>
    obtain ⟨host, port⟩ := found
    dsimp only
    cases hwire : validateWireTarget request.target with
    | error =>
      refine ⟨_, rfl, fun parsed => ⟨fun h => (by cases h), fun h => ?_⟩⟩
      rw [htarget.mpr h.clean] at hwire
      cases hwire
    | ok =>
      refine ⟨_, rfl, fun parsed => ⟨?_, fun h => ?_⟩⟩
      · intro h
        cases h
        refine ⟨htarget.mp hwire, rfl, authority, ?_, (hspec host port).mp rfl⟩
        rw [request.absolute, htext]
      · obtain ⟨hscheme, hwrites⟩ := hurl parsed h
        have hok := (hspec parsed.host parsed.port).mpr hwrites
        have hsame := h.target
        cases parsed
        cases hok
        cases hscheme
        cases hsame
        rfl

/-- Two URLs that differ at most in how the port and the brackets of a host are written. -/
def SameButSpelling (request other : HttpRequest) : Prop :=
  ∃ scheme host port authority authority' target,
    request.absoluteUrl = Scheme.text scheme ++ schemeSeparator ++ authority ++ target ∧
    other.absoluteUrl = Scheme.text scheme ++ schemeSeparator ++ authority' ++ target ∧
    WritesAuthority scheme.defaultPort host port authority ∧
    WritesAuthority scheme.defaultPort host port authority'

/-- A request is never sliced out of bounds, it is accepted exactly when its URL writes a host, a
port and a target without control characters, and the parts are those that the URL writes. -/
theorem request_parts_are_written (request : HttpRequest) :
    (∃ result, ParsedRequest.fromRequest request = some result ∧
      ∀ parsed, result = .ok parsed ↔ Writes request parsed) ∧
    ∀ other parsed, ParsedRequest.fromRequest request = some (.ok parsed) →
      ParsedRequest.fromRequest other = some (.ok parsed) → SameButSpelling request other := by
  refine ⟨ParsedRequest.fromRequest_spec request, fun other parsed hrequest hother => ?_⟩
  obtain ⟨result, hresult, hspec⟩ := ParsedRequest.fromRequest_spec request
  obtain ⟨_, hresult', hspec'⟩ := ParsedRequest.fromRequest_spec other
  rw [hrequest] at hresult
  rw [hother] at hresult'
  obtain ⟨_, _, authority, habsolute, hwrites⟩ := (hspec parsed).mp (Option.some.inj hresult).symm
  obtain ⟨_, _, authority', habsolute', hwrites'⟩ :=
    (hspec' parsed).mp (Option.some.inj hresult').symm
  exact ⟨parsed.scheme, parsed.host, parsed.port, authority, authority', parsed.target, habsolute,
    habsolute', hwrites, hwrites'⟩

theorem Authority.of_all (hnonempty : authority ≠ []) (hall : (authority.all fun c =>
      !isDelimiter c && c != '@' && !isWhiteSpace c && !isControl c) = true) :
    Authority authority := by
  refine ⟨hnonempty, fun c hc => ?_⟩
  have hchar := List.all_eq_true.mp hall c hc
  simpa [and_assoc] using hchar

def nameOrigin : BaseUrl where
  text := "https://example.test".toList
  origin := ⟨httpsScheme, "example.test".toList, .inr rfl, .of_all (by decide) (by decide), rfl⟩

def bracketedOrigin : BaseUrl where
  text := "https://[example.test]".toList
  origin := ⟨httpsScheme, "[example.test]".toList, .inr rfl, .of_all (by decide) (by decide), rfl⟩

def nameRequest : HttpRequest := ⟨nameOrigin, ['/'], "https://example.test/".toList, rfl, rfl⟩

def bracketedRequest : HttpRequest :=
  ⟨bracketedOrigin, ['/'], "https://[example.test]/".toList, rfl, rfl⟩

/-- Brackets are accepted around a host that has no colon, which then is the host of the URL
without them. -/
theorem bracketed_name_accepted :
    ParsedRequest.fromRequest bracketedRequest =
      some (.ok ⟨.https, "example.test".toList, 443, ['/']⟩) ∧
    ParsedRequest.fromRequest nameRequest = ParsedRequest.fromRequest bracketedRequest ∧
    ¬∃ host written port, Host host ∧
      bracketedOrigin.text = httpsScheme ++ schemeSeparator ++ (written ++ port) ∧
      written = if ':' ∈ host then '[' :: host ++ [']'] else host := by
  refine ⟨by decide +kernel, by decide +kernel, ?_⟩
  rintro ⟨host, written, port, hhost, htext, hwritten⟩
  have hwhole : httpsScheme ++ schemeSeparator ++ "[example.test]".toList =
      httpsScheme ++ schemeSeparator ++ (written ++ port) := htext
  have hauthority := List.append_cancel_left hwhole
  split at hwritten
  next hcolon =>
    have hmem : ':' ∈ "[example.test]".toList := by
      rw [hauthority, hwritten]
      simp [hcolon]
    revert hmem
    decide
  next =>
    cases host with
    | nil => exact hhost.nonempty rfl
    | cons c =>
      have hhead : c = '[' := by
        have hheads := congrArg List.head? hauthority
        rw [hwritten] at hheads
        exact (Option.some.inj hheads).symm
      exact (hhost.chars c List.mem_cons_self).2.2.1 hhead

end Nexus
