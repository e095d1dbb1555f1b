import Mathlib.Data.List.MinMax
import Mathlib.Data.Prod.Lex
import Mathlib.Order.Fin.Basic
import Nexus.AbsoluteUrls
import Nexus.Json
import Nexus.PlainText

namespace Nexus

open Text

structure NexusVersion where
  major : Fin (2 ^ 16)
  minor : Fin (2 ^ 16)
  build : Fin (2 ^ 16)
  revision : Fin (2 ^ 16)
  deriving DecidableEq

namespace NexusVersion

def components (version : NexusVersion) :
    Fin (2 ^ 16) ×ₗ Fin (2 ^ 16) ×ₗ Fin (2 ^ 16) ×ₗ Fin (2 ^ 16) :=
  toLex (version.major, toLex (version.minor, toLex (version.build, version.revision)))

theorem components_injective : Function.Injective components := by
  rintro ⟨_, _, _, _⟩ ⟨_, _, _, _⟩ h
  cases h
  rfl

instance : LinearOrder NexusVersion := LinearOrder.lift' components components_injective

def parsePart (part : Text) : Option (Fin (2 ^ 16)) :=
  if part = [] ∨ part.bytes.all isAsciiDigit = false then none
  else parseUnsigned (2 ^ 16) (String.ofList part)

def fromStr (value : Text) : Option NexusVersion :=
  let value := if value.head? = some 'v' then value.tail else value
  let parts := value.splitOn '.'
  if ¬(2 ≤ parts.length ∧ parts.length ≤ 4) then none
  else
    (parts.mapM parsePart).map fun parsed =>
      ⟨parsed[0]?.getD 0, parsed[1]?.getD 0, parsed[2]?.getD 0, parsed[3]?.getD 0⟩

end NexusVersion

def JsonValue.member (value : JsonValue) (key : String) : Option JsonValue :=
  value.asObject.bind fun members => members.get key

structure AddonRelease where
  version : NexusVersion
  source : DownloadSource
  deriving DecidableEq

inductive GithubReleaseError where
  | invalidJson
  | invalidShape
  deriving DecidableEq

def dllUrl (asset : JsonValue) : Option Text := do
  let name ← (← asset.member "name").asStr
  if ".dll".toList <:+ name.toList then
    let url ← (← asset.member "browser_download_url").asStr
    return url.toList
  else none

/-- `first_dll_source`; the outer `none` is a panic. -/
def firstDllSource : List JsonValue → Option (Option DownloadSource)
  | [] => some none
  | asset :: rest =>
    match dllUrl asset with
    | none => firstDllSource rest
    | some url =>
      match DownloadSource.parse url with
      | none => none
      | some (.ok source) => some (some source)
      | some (.error _) => firstDllSource rest

def offer (allowPrereleases : Bool) (release : JsonValue) :
    Option (NexusVersion × Option (List JsonValue)) := do
  let prerelease ← (← release.member "prerelease").asBool
  if prerelease = true ∧ allowPrereleases = false then none
  else
    let tagName ← (← release.member "tag_name").asStr
    let version ← NexusVersion.fromStr tagName.toList
    return (version, (release.member "assets").bind JsonValue.asArray)

def considerRelease (current : NexusVersion) (allowPrereleases : Bool)
    (selected : Option AddonRelease) (release : JsonValue) : Option (Option AddonRelease) :=
  match offer allowPrereleases release with
  | none => some selected
  | some (version, assets) =>
    if version ≤ (selected.map AddonRelease.version).getD current then some selected
    else
      match assets with
      | none => some selected
      | some assets =>
        match firstDllSource assets with
        | none => none
        | some none => some selected
        | some (some source) => some (some ⟨version, source⟩)

/-- `select_github_addon_update`, with the parser of the JSON library; the outer `none` is a
panic. -/
def selectGithubAddonUpdate (fromSlice : ByteArray → Option JsonValue) (bytes : ByteArray)
    (current : NexusVersion) (allowPrereleases : Bool) :
    Option (Except GithubReleaseError (Option AddonRelease)) :=
  match fromSlice bytes with
  | none => some (.error .invalidJson)
  | some value =>
    match value.asArray with
    | none => some (.error .invalidShape)
    | some releases =>
      (releases.foldlM (considerRelease current allowPrereleases) none).map .ok

def Acceptable (asset : JsonValue) (source : DownloadSource) : Prop :=
  ∃ name url, asset.member "name" = some (.string name) ∧ ".dll".toList <:+ name.toList ∧
    asset.member "browser_download_url" = some (.string url) ∧
    DownloadSource.parse url.toList = some (.ok source)

def FirstDll (assets : List JsonValue) (source : DownloadSource) : Prop :=
  ∃ before asset after, assets = before ++ asset :: after ∧ Acceptable asset source ∧
    ∀ earlier ∈ before, ∀ other, ¬Acceptable earlier other

/-- A release that may be selected, with its version and its first acceptable asset. -/
def Eligible (current : NexusVersion) (allowPrereleases : Bool) (release : JsonValue)
    (offered : AddonRelease) : Prop :=
  ∃ prerelease tagName assets, release.member "prerelease" = some (.bool prerelease) ∧
    (prerelease = false ∨ allowPrereleases = true) ∧
    release.member "tag_name" = some (.string tagName) ∧
    NexusVersion.fromStr tagName.toList = some offered.version ∧ current < offered.version ∧
    release.member "assets" = some (.array assets) ∧ FirstDll assets offered.source

variable {value : JsonValue}

theorem asStr_eq_some {text : String} : value.asStr = some text ↔ value = .string text := by
  cases value <;> simp [JsonValue.asStr]

theorem asBool_eq_some {flag : Bool} : value.asBool = some flag ↔ value = .bool flag := by
  cases value <;> simp [JsonValue.asBool]

theorem asArray_eq_some {values : List JsonValue} :
    value.asArray = some values ↔ value = .array values := by
  cases value <;> simp [JsonValue.asArray]

variable {asset : JsonValue}

theorem dllUrl_eq_some {url : Text} : dllUrl asset = some url ↔
    ∃ name text, asset.member "name" = some (.string name) ∧ ".dll".toList <:+ name.toList ∧
      asset.member "browser_download_url" = some (.string text) ∧ text.toList = url := by
  unfold dllUrl
  simp only [Option.bind_eq_bind, Option.bind_eq_some_iff, asStr_eq_some,
    Option.ite_none_right_eq_some, Option.pure_def, Option.some_inj]
  constructor
  · rintro ⟨value, hname, name, rfl, hdll, value', hurl, text, rfl, rfl⟩
    exact ⟨name, text, hname, hdll, hurl, rfl⟩
  · rintro ⟨name, text, hname, hdll, hurl, rfl⟩
    exact ⟨_, hname, name, rfl, hdll, _, hurl, text, rfl, rfl⟩

variable {source : DownloadSource}

theorem acceptable_iff : Acceptable asset source ↔
    ∃ url, dllUrl asset = some url ∧ DownloadSource.parse url = some (.ok source) := by
  constructor
  · rintro ⟨name, url, hname, hdll, hurl, hparse⟩
    exact ⟨_, dllUrl_eq_some.mpr ⟨name, url, hname, hdll, hurl, rfl⟩, hparse⟩
  · rintro ⟨_, hdllUrl, hparse⟩
    obtain ⟨name, url, hname, hdll, hurl, rfl⟩ := dllUrl_eq_some.mp hdllUrl
    exact ⟨name, url, hname, hdll, hurl, hparse⟩

variable {rest : List JsonValue}

theorem FirstDll.here (h : Acceptable asset source) : FirstDll (asset :: rest) source :=
  ⟨[], asset, rest, rfl, h, fun _ hnone => absurd hnone List.not_mem_nil⟩

theorem FirstDll.cons_iff (h : ∀ source, ¬Acceptable asset source) :
    FirstDll (asset :: rest) source ↔ FirstDll rest source := by
  constructor
  · rintro ⟨before, found, after, heq, hfound, hbefore⟩
    cases before with
    | nil =>
      cases heq
      exact absurd hfound (h source)
    | cons _ before =>
      cases heq
      exact ⟨before, found, after, rfl, hfound, fun earlier hmem =>
        hbefore earlier (List.mem_cons_of_mem _ hmem)⟩
  · rintro ⟨before, found, after, rfl, hfound, hbefore⟩
    refine ⟨asset :: before, found, after, rfl, hfound, fun earlier hmem => ?_⟩
    rcases List.mem_cons.mp hmem with rfl | hmem
    · exact h
    · exact hbefore earlier hmem

theorem firstDllSource_spec (assets : List JsonValue) :
    ∃ found, firstDllSource assets = some found ∧
      ∀ source, found = some source ↔ FirstDll assets source := by
  induction assets with
  | nil =>
    refine ⟨none, rfl, fun source => ⟨fun h => (by cases h), ?_⟩⟩
    rintro ⟨before, asset, after, heq, _⟩
    cases before <;> cases heq
  | cons asset _ ih =>
    obtain ⟨found, hfound, hfirst⟩ := ih
    rw [firstDllSource]
    split
    next hnone =>
      have hnot : ∀ source, ¬Acceptable asset source := by
        intro source h
        obtain ⟨url, hurl, _⟩ := acceptable_iff.mp h
        rw [hnone] at hurl
        cases hurl
      exact ⟨found, hfound, fun source => (hfirst source).trans (FirstDll.cons_iff hnot).symm⟩
    next url hurl =>
      split
      next hpanic =>
        obtain ⟨_, hresult⟩ := DownloadSource.parse_total url
        rw [hpanic] at hresult
        cases hresult
      next source hparse =>
        have hhere : Acceptable asset source := acceptable_iff.mpr ⟨url, hurl, hparse⟩
        refine ⟨some source, rfl, fun other => ⟨?_, ?_⟩⟩
        · rintro h
          cases h
          exact .here hhere
        · rintro ⟨before, first, after, heq, hfirst, hbefore⟩
          cases before with
          | nil =>
            cases heq
            obtain ⟨url', hurl', hparse'⟩ := acceptable_iff.mp hfirst
            rw [hurl] at hurl'
            cases hurl'
            rw [hparse] at hparse'
            cases hparse'
            rfl
          | cons =>
            cases heq
            exact absurd hhere (hbefore asset List.mem_cons_self source)
      next hparse =>
        have hnot : ∀ source, ¬Acceptable asset source := by
          intro source h
          obtain ⟨url', hurl', hparse'⟩ := acceptable_iff.mp h
          rw [hurl] at hurl'
          cases hurl'
          rw [hparse] at hparse'
          cases hparse'
        exact ⟨found, hfound, fun source => (hfirst source).trans (FirstDll.cons_iff hnot).symm⟩

def eligible (current : NexusVersion) (allowPrereleases : Bool) (release : JsonValue) :
    Option AddonRelease := do
  let (version, assets) ← offer allowPrereleases release
  let source ← (← firstDllSource (← assets))
  if current < version then return ⟨version, source⟩ else none

variable {allowPrereleases : Bool} {release : JsonValue}

theorem offer_eq_some {version : NexusVersion} {assets : Option (List JsonValue)} :
    offer allowPrereleases release = some (version, assets) ↔
    ∃ prerelease tagName, release.member "prerelease" = some (.bool prerelease) ∧
      (prerelease = false ∨ allowPrereleases = true) ∧
      release.member "tag_name" = some (.string tagName) ∧
      NexusVersion.fromStr tagName.toList = some version ∧
      (release.member "assets").bind JsonValue.asArray = assets := by
  unfold offer
  simp only [Option.bind_eq_bind, Option.bind_eq_some_iff, asBool_eq_some, asStr_eq_some,
    Option.ite_none_left_eq_some, Option.pure_def, Option.some_inj, Prod.mk.injEq]
  constructor
  · rintro ⟨_, hflag, prerelease, rfl, hallowed, _, htag, tagName, rfl, found, hversion, rfl, rfl⟩
    refine ⟨prerelease, tagName, hflag, ?_, htag, hversion, rfl⟩
    revert hallowed
    cases prerelease <;> cases allowPrereleases <;> simp
  · rintro ⟨prerelease, tagName, hflag, hallowed, htag, hversion, rfl⟩
    refine ⟨_, hflag, prerelease, rfl, ?_, _, htag, tagName, rfl, version, hversion, rfl, rfl⟩
    revert hallowed
    cases prerelease <;> cases allowPrereleases <;> simp

variable {current : NexusVersion}

theorem eligible_eq_some {offered : AddonRelease} :
    eligible current allowPrereleases release = some offered ↔
      Eligible current allowPrereleases release offered := by
  unfold eligible
  simp only [Option.bind_eq_bind, Option.bind_eq_some_iff, Option.ite_none_right_eq_some,
    Option.pure_def, Option.some_inj, Prod.exists]
  constructor
  · rintro ⟨version, _, hoffer, assets, rfl, _, hfound, source, rfl, hnewer, rfl⟩
    obtain ⟨prerelease, tagName, hflag, hallowed, htag, hversion, hassets⟩ :=
      offer_eq_some.mp hoffer
    obtain ⟨_, hmember, harray⟩ := Option.bind_eq_some_iff.mp hassets
    rw [asArray_eq_some.mp harray] at hmember
    obtain ⟨found, hsame, hfirst⟩ := firstDllSource_spec assets
    rw [hfound] at hsame
    cases hsame
    exact ⟨prerelease, tagName, assets, hflag, hallowed, htag, hversion, hnewer, hmember,
      (hfirst source).mp rfl⟩
  · rintro ⟨prerelease, tagName, assets, hflag, hallowed, htag, hversion, hnewer, hmember, hdll⟩
    obtain ⟨found, hfound, hfirst⟩ := firstDllSource_spec assets
    refine ⟨offered.version, some assets, offer_eq_some.mpr
      ⟨prerelease, tagName, hflag, hallowed, htag, hversion, ?_⟩, assets, rfl, found, hfound,
      offered.source, (hfirst _).mpr hdll, hnewer, rfl⟩
    rw [hmember]
    rfl

section FirstMax

variable {α β : Type} [LinearOrder β] {f : α → β} {l l' : List α} {m m' : α}

theorem argmax_split (h : l.argmax f = some m) : ∃ before after, l = before ++ m :: after ∧
    (∀ x ∈ before, f x < f m) ∧ ∀ x ∈ after, f x ≤ f m := by
  induction l generalizing m with
  | nil => cases h
  | cons a l ih =>
    rw [List.argmax_cons] at h
    cases hl : l.argmax f with
    | none =>
      rw [hl] at h
      cases h
      rw [List.argmax_eq_none.mp hl]
      exact ⟨[], [], rfl, by simp, by simp⟩
    | some c =>
      rw [hl] at h
      dsimp only at h
      split at h
      next hless =>
        cases h
        obtain ⟨before, after, rfl, hbefore, hafter⟩ := ih hl
        exact ⟨a :: before, after, rfl, List.forall_mem_cons.mpr ⟨hless, hbefore⟩, hafter⟩
      next hless =>
        cases h
        refine ⟨[], l, rfl, by simp, fun x hx => ?_⟩
        have hle : f x ≤ f c := List.le_of_mem_argmax hx hl
        exact hle.trans (not_lt.mp hless)

variable [DecidableEq β]

theorem head_filter_argmax (h : l.argmax f = some m) :
    (l.filter fun x => f x = f m).head? = some m := by
  obtain ⟨before, _, rfl, hbefore, _⟩ := argmax_split h
  have hnone : before.filter (fun x => f x = f m) = [] :=
    List.filter_eq_nil_iff.mpr fun x hx => by simpa using (hbefore x hx).ne
  rw [List.filter_append, hnone, List.nil_append, List.filter_cons_of_pos (by simp)]
  rfl

theorem argmax_le_of_filters (h : ∀ y, l.filter (fun x => f x = y) = l'.filter fun x => f x = y)
    (hm : l.argmax f = some m) (hm' : l'.argmax f = some m') : f m ≤ f m' := by
  have hmem : m ∈ l'.filter fun x => f x = f m := by
    rw [← h]
    exact List.mem_filter.mpr ⟨List.argmax_mem hm, by simp⟩
  exact List.le_of_mem_argmax (List.mem_of_mem_filter hmem) hm'

theorem argmax_eq_of_filters (h : ∀ y, l.filter (fun x => f x = y) = l'.filter fun x => f x = y) :
    l.argmax f = l'.argmax f := by
  cases hm : l.argmax f with
  | none =>
    have hnil : l' = [] := by
      refine List.eq_nil_iff_forall_not_mem.mpr fun x hx => ?_
      have hx' : x ∈ l.filter fun z => f z = f x := by
        rw [h]
        exact List.mem_filter.mpr ⟨hx, by simp⟩
      rw [List.argmax_eq_none.mp hm] at hx'
      cases hx'
    rw [hnil]
    rfl
  | some m =>
    cases hm' : l'.argmax f with
    | none =>
      have hmem : m ∈ l'.filter fun x => f x = f m := by
        rw [← h]
        exact List.mem_filter.mpr ⟨List.argmax_mem hm, by simp⟩
      rw [List.argmax_eq_none.mp hm'] at hmem
      cases hmem
    | some m' =>
      have heq : f m = f m' := le_antisymm (argmax_le_of_filters h hm hm')
        (argmax_le_of_filters (fun y => (h y).symm) hm' hm)
      have hhead := head_filter_argmax hm
      rw [h, heq, head_filter_argmax hm'] at hhead
      exact hhead.symm

end FirstMax

abbrev newest : Option AddonRelease → AddonRelease → Option AddonRelease :=
  List.argAux fun offered selected => selected.version < offered.version

variable {selected : Option AddonRelease}

theorem considerRelease_eq (h : ∀ chosen ∈ selected, current < chosen.version)
    (allowPrereleases : Bool) (release : JsonValue) :
    considerRelease current allowPrereleases selected release =
      some ((eligible current allowPrereleases release).elim selected (newest selected)) := by
  unfold considerRelease eligible
  cases hoffer : offer allowPrereleases release with
  | none => rfl
  | some found =>
    obtain ⟨version, assets⟩ := found
    cases assets with
    | none => simp
    | some assets =>
      obtain ⟨source, hsource, _⟩ := firstDllSource_spec assets
      cases source with
      | none => simp [hsource]
      | some =>
        cases selected with
        | none =>
          by_cases hnewer : current < version <;> simp [hsource, hnewer, newest, List.argAux]
        | some chosen =>
          have hchosen : current < chosen.version := h chosen rfl
          by_cases hnewer : chosen.version < version
          · simp [hsource, hnewer, hchosen.trans hnewer, newest, List.argAux]
          · by_cases hcurrent : current < version <;>
              simp [hsource, hnewer, hcurrent, newest, List.argAux]

theorem newest_newer (h : ∀ chosen ∈ selected, current < chosen.version) (allowPrereleases : Bool)
    (release : JsonValue) :
    ∀ chosen ∈ (eligible current allowPrereleases release).elim selected (newest selected),
      current < chosen.version := by
  cases hoffer : eligible current allowPrereleases release with
  | none => exact h
  | some =>
    obtain ⟨_, _, _, _, _, _, _, hnewer, _⟩ := eligible_eq_some.mp hoffer
    cases selected with
    | none =>
      rintro chosen ⟨⟩
      exact hnewer
    | some =>
      intro chosen hchosen
      simp only [Option.elim, newest, List.argAux] at hchosen
      split at hchosen
      · cases hchosen
        exact hnewer
      · cases hchosen
        exact h _ rfl

theorem foldlM_considerRelease (current : NexusVersion) (allowPrereleases : Bool)
    (releases : List JsonValue) (selected : Option AddonRelease)
    (h : ∀ chosen ∈ selected, current < chosen.version) :
    releases.foldlM (considerRelease current allowPrereleases) selected =
      some ((releases.filterMap (eligible current allowPrereleases)).foldl newest selected) := by
  induction releases generalizing selected with
  | nil => rfl
  | cons release _ ih =>
    rw [List.foldlM_cons, considerRelease_eq h, List.filterMap_cons]
    have htail := ih _ (newest_newer h allowPrereleases release)
    cases hoffer : eligible current allowPrereleases release with
    | none | some =>
      rw [hoffer] at htail
      exact htail

def offersOf (current : NexusVersion) (allowPrereleases : Bool) (releases : List JsonValue)
    (version : NexusVersion) : List AddonRelease :=
  (releases.filterMap (eligible current allowPrereleases)).filter fun offered =>
    offered.version = version

section Selection

variable {fromSlice : ByteArray → Option JsonValue} {bytes : ByteArray} {releases : List JsonValue}

theorem select_eq_argmax (h : fromSlice bytes = some (.array releases)) (current : NexusVersion)
    (allowPrereleases : Bool) : selectGithubAddonUpdate fromSlice bytes current allowPrereleases =
      some (.ok ((releases.filterMap (eligible current allowPrereleases)).argmax
        AddonRelease.version)) := by
  rw [selectGithubAddonUpdate, h]
  dsimp only [JsonValue.asArray]
  rw [foldlM_considerRelease current allowPrereleases releases none (by simp)]
  rfl

theorem select_split {current : NexusVersion} {allowPrereleases : Bool} {selected : AddonRelease}
    (h : (releases.filterMap (eligible current allowPrereleases)).argmax AddonRelease.version =
      some selected) : ∃ before release after, releases = before ++ release :: after ∧
      Eligible current allowPrereleases release selected ∧
      (∀ earlier ∈ before, ∀ offered, Eligible current allowPrereleases earlier offered →
        offered.version < selected.version) ∧
      ∀ later ∈ after, ∀ offered, Eligible current allowPrereleases later offered →
        offered.version ≤ selected.version := by
  obtain ⟨_, _, hsplit, hlower, hupper⟩ := argmax_split h
  obtain ⟨before, _, rfl, hbefore, hrest⟩ := List.filterMap_eq_append_iff.mp hsplit
  obtain ⟨skipped, release, after, rfl, hskipped, hrelease, hafter⟩ :=
    List.filterMap_eq_cons_iff.mp hrest
  refine ⟨before ++ skipped, release, after, by simp, eligible_eq_some.mp hrelease, ?_, ?_⟩
  · intro earlier hmem offered hoffered
    have heligible := eligible_eq_some.mpr hoffered
    rcases List.mem_append.mp hmem with hmem | hmem
    · apply hlower
      rw [← hbefore]
      exact List.mem_filterMap.mpr ⟨earlier, hmem, heligible⟩
    · rw [hskipped earlier hmem] at heligible
      cases heligible
  · intro later hmem offered hoffered
    apply hupper
    rw [← hafter]
    exact List.mem_filterMap.mpr ⟨later, hmem, eligible_eq_some.mpr hoffered⟩

/-- The selected release is the first eligible one of the greatest version, and nothing is selected
when none is eligible; neither the order of different versions nor what is not eligible counts. -/
theorem select_github_addon_update_is_maximum (h : fromSlice bytes = some (.array releases))
    (current : NexusVersion) (allowPrereleases : Bool) :
    ∃ selected, selectGithubAddonUpdate fromSlice bytes current allowPrereleases =
        some (.ok selected) ∧
      (selected.isSome ↔ ∃ release ∈ releases, ∃ offered,
        Eligible current allowPrereleases release offered) ∧
      (∀ chosen, selected = some chosen → ∃ before release after,
        releases = before ++ release :: after ∧
        Eligible current allowPrereleases release chosen ∧
        (∀ earlier ∈ before, ∀ offered, Eligible current allowPrereleases earlier offered →
          offered.version < chosen.version) ∧
        ∀ later ∈ after, ∀ offered, Eligible current allowPrereleases later offered →
          offered.version ≤ chosen.version) ∧
      ∀ bytes' releases', fromSlice bytes' = some (.array releases') →
        (∀ version, offersOf current allowPrereleases releases version =
          offersOf current allowPrereleases releases' version) →
        selectGithubAddonUpdate fromSlice bytes' current allowPrereleases =
          some (.ok selected) := by
  refine ⟨_, select_eq_argmax h current allowPrereleases, ?_, fun chosen => select_split, ?_⟩
  · constructor
    · intro hsome
      obtain ⟨chosen, hchosen⟩ := Option.isSome_iff_exists.mp hsome
      obtain ⟨release, hmem, heligible⟩ := List.mem_filterMap.mp (List.argmax_mem hchosen)
      exact ⟨release, hmem, chosen, eligible_eq_some.mp heligible⟩
    · rintro ⟨release, hmem, offered, heligible⟩
      have hoffer : offered ∈ releases.filterMap (eligible current allowPrereleases) :=
        List.mem_filterMap.mpr ⟨release, hmem, eligible_eq_some.mpr heligible⟩
      rw [Option.isSome_iff_ne_none]
      intro hnone
      rw [List.argmax_eq_none.mp hnone] at hoffer
      cases hoffer
  · intro bytes' releases' h' hoffers
    have hsame : (releases'.filterMap (eligible current allowPrereleases)).argmax
        AddonRelease.version = (releases.filterMap (eligible current allowPrereleases)).argmax
          AddonRelease.version := argmax_eq_of_filters fun version => (hoffers version).symm
    rw [select_eq_argmax h', hsame]

end Selection

def publishedRelease : JsonValue :=
  .object [("assets", .array [.object [("name", .string "notes.txt")],
    .object [("browser_download_url", .string "https://h/a.dll"), ("name", .string "a.dll")]]),
    ("prerelease", .bool false), ("tag_name", .string "v2.0")]

/-- A JSON library that reads every text as a list with one malformed and one published release. -/
def publishes : ByteArray → Option JsonValue := fun _ => some (.array [.null, publishedRelease])

theorem published_release_selected : ∃ source, selectGithubAddonUpdate publishes ByteArray.empty
    ⟨1, 9, 0, 0⟩ false = some (.ok (some ⟨⟨2, 0, 0, 0⟩, source⟩)) := by
  have hoffer : ((eligible ⟨1, 9, 0, 0⟩ false publishedRelease).map AddonRelease.version) =
      some ⟨2, 0, 0, 0⟩ := by decide +kernel
  obtain ⟨offered, hoffered, hversion⟩ := Option.map_eq_some_iff.mp hoffer
  have hparse : publishes ByteArray.empty = some (.array [.null, publishedRelease]) := rfl
  obtain ⟨_, hselect, hsome, hmaximum, _⟩ :=
    select_github_addon_update_is_maximum hparse ⟨1, 9, 0, 0⟩ false
  have hexists := hsome.mpr ⟨publishedRelease, by simp, offered, eligible_eq_some.mp hoffered⟩
  obtain ⟨chosen, rfl⟩ := Option.isSome_iff_exists.mp hexists
  obtain ⟨_, release, _, hsplit, hchosen, _⟩ := hmaximum chosen rfl
  have hrelease : release = .null ∨ release = publishedRelease := by
    have hmem : release ∈ [JsonValue.null, publishedRelease] := by
      rw [hsplit]
      simp
    simpa using hmem
  have heligible := eligible_eq_some.mpr hchosen
  rcases hrelease with rfl | rfl
  · cases heligible
  · rw [hoffered] at heligible
    cases heligible
    refine ⟨offered.source, hselect.trans ?_⟩
    rw [← hversion]

end Nexus
