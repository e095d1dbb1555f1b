import Nexus.AddonConfigEntries
import Mathlib.Data.List.Basic

namespace Nexus

namespace AddonConfigDocument

def Recognised (before : List JsonValue) (value : JsonValue) : Prop :=
  ∃ entry, parseKnownEntry value = some entry ∧
    ∀ other ∈ before, ∀ known, parseKnownEntry other = some known →
      known.signature ≠ entry.signature

/-- A recognised element keeps its foreign members, and its own are read as before. -/
structure Kept (value saved : JsonValue) : Prop where
  members : ∃ read written, value = .object read ∧ saved = .object written ∧
    ∀ key ∉ knownKeys, JsonMembers.get written key = JsonMembers.get read key
  meaning : parseKnownEntry saved = parseKnownEntry value

inductive SavedAs : List JsonValue → List JsonValue → List JsonValue → Prop where
  | nil (before : List JsonValue) : SavedAs before [] []
  | recognised {before rest savedRest : List JsonValue} {value saved : JsonValue}
      (first : Recognised before value) (kept : Kept value saved)
      (tail : SavedAs (before ++ [value]) rest savedRest) :
      SavedAs before (value :: rest) (saved :: savedRest)
  | other {before rest savedRest : List JsonValue} {value : JsonValue}
      (later : ¬Recognised before value) (tail : SavedAs (before ++ [value]) rest savedRest) :
      SavedAs before (value :: rest) (value :: savedRest)

variable {before values saved : List JsonValue}

theorem SavedAs.length_eq (h : SavedAs before values saved) : saved.length = values.length := by
  induction h with
  | nil => rfl
  | recognised _ _ _ ih | other _ _ ih => exact congrArg Nat.succ ih

variable {value : JsonValue}

theorem SavedAs.at (h : SavedAs before values saved) {first : List JsonValue}
    {rest : List JsonValue} (hvalues : values = first ++ value :: rest) :
    ∃ written, saved[first.length]? = some written ∧
      (Recognised (before ++ first) value → Kept value written) ∧
      (¬Recognised (before ++ first) value → written = value) := by
  induction h generalizing first with
  | nil => simp at hvalues
  | @recognised _ _ _ _ written hfirst hkept _ ih =>
    rcases first with _ | ⟨other, first⟩
    · obtain ⟨rfl, rfl⟩ := List.cons.inj hvalues
      rw [List.append_nil]
      exact ⟨written, rfl, fun _ => hkept, fun hnot => absurd hfirst hnot⟩
    · obtain ⟨rfl, htail⟩ := List.cons.inj hvalues
      rw [List.append_cons]
      exact ih htail
  | @other _ _ _ head hlater _ ih =>
    rcases first with _ | ⟨other, first⟩
    · obtain ⟨rfl, rfl⟩ := List.cons.inj hvalues
      rw [List.append_nil]
      exact ⟨head, rfl, fun hrecognised => absurd hrecognised hlater, fun _ => rfl⟩
    · obtain ⟨rfl, htail⟩ := List.cons.inj hvalues
      rw [List.append_cons]
      exact ih htail

variable {object : JsonMembers} {mode : UpdateMode}

theorem readUpdateMode_ne_none {pausing : UpdateMode} (hpausing : pausing ≠ .none)
    (h : readUpdateMode object pausing = some mode) : mode ≠ .none := by
  unfold readUpdateMode at h
  split at h
  next =>
    cases h
    exact hpausing
  next =>
    obtain ⟨_, _, hnumber⟩ := Option.bind_eq_some_iff.mp h
    unfold UpdateMode.fromLegacy at hnumber
    split at hnumber <;> cases hnumber <;> exact nofun

theorem readPausing_ne_none (h : readPausing object = some mode) : mode ≠ .none := by
  unfold readPausing at h
  split at h
  next =>
    cases h
    exact nofun
  next =>
    obtain ⟨pausing, _, rfl⟩ := Option.map_eq_some_iff.mp h
    cases pausing <;> exact nofun

variable {entry : KnownEntry}

theorem parseKnownEntry_reloaded (h : parseKnownEntry value = some entry) :
    reloadedKnown entry = entry := by
  obtain ⟨_, _, h⟩ := Option.bind_eq_some_iff.mp h
  obtain ⟨_, _, h⟩ := Option.bind_eq_some_iff.mp h
  obtain ⟨config, hconfig, h⟩ := Option.bind_eq_some_iff.mp h
  obtain ⟨_, hpausing, hconfig⟩ := Option.bind_eq_some_iff.mp hconfig
  obtain ⟨mode, hmode, hconfig⟩ := Option.bind_eq_some_iff.mp hconfig
  have hread := readUpdateMode_ne_none (readPausing_ne_none hpausing) hmode
  have hsame : config.updateMode = mode := by
    obtain ⟨_, _, hconfig⟩ := Option.bind_eq_some_iff.mp hconfig
    obtain ⟨_, _, hconfig⟩ := Option.bind_eq_some_iff.mp hconfig
    obtain ⟨_, _, hconfig⟩ := Option.bind_eq_some_iff.mp hconfig
    obtain ⟨_, _, hconfig⟩ := Option.bind_eq_some_iff.mp hconfig
    obtain ⟨_, _, hconfig⟩ := Option.bind_eq_some_iff.mp hconfig
    obtain ⟨_, _, hconfig⟩ := Option.bind_eq_some_iff.mp hconfig
    cases hconfig
    rfl
  have hmode : config.updateMode.reloaded = config.updateMode := by
    rw [hsame]
    cases mode with
    | none => exact absurd rfl hread
    | _ => rfl
  cases h
  unfold reloadedKnown
  dsimp only
  rw [hmode]

theorem parseKnownEntry_unknown (h : parseKnownEntry value = some entry) :
    ∃ members, value = .object members ∧
      entry.unknown = knownKeys.foldl JsonMembers.remove members := by
  obtain ⟨members, hmembers, h⟩ := Option.bind_eq_some_iff.mp h
  obtain ⟨_, _, h⟩ := Option.bind_eq_some_iff.mp h
  obtain ⟨_, _, h⟩ := Option.bind_eq_some_iff.mp h
  cases h
  refine ⟨members, ?_, rfl⟩
  cases value with
  | object => exact congrArg JsonValue.object (Option.some.inj hmembers)
  | _ => cases hmembers

theorem get_knownMembers_foreign (entry : KnownEntry) {key : String} (hkey : key ∉ knownKeys) :
    (knownMembers entry).get key = JsonMembers.get entry.unknown key := by
  unfold knownKeys at hkey
  simp only [List.mem_cons, List.not_mem_nil, or_false, not_or] at hkey
  obtain ⟨h₁, h₂, h₃, h₄, h₅, h₆, h₇, h₈⟩ := hkey
  rw [get_knownMembers, if_neg h₈, if_neg h₇, if_neg h₆, if_neg h₅, if_neg h₄, if_neg h₃,
    if_neg h₂, if_neg h₁]

theorem kept_knownToValue (h : parseKnownEntry value = some entry) :
    Kept value (knownToValue entry) where
  members := by
    obtain ⟨members, hvalue, hunknown⟩ := parseKnownEntry_unknown h
    refine ⟨members, knownMembers entry, hvalue, rfl, fun key hkey => ?_⟩
    rw [get_knownMembers_foreign entry hkey, hunknown, JsonMembers.get_foldl_remove, if_neg hkey]
  meaning := by
    rw [parseKnownEntry_knownToValue (parseKnownEntry_some h).1, parseKnownEntry_reloaded h, h]

theorem classify_savedAs (values : List JsonValue) {seen : List Nat}
    (hseen : ∀ signature, signature ∈ seen ↔ ∃ other ∈ before, ∃ known,
      parseKnownEntry other = some known ∧ known.signature = signature) :
    SavedAs before values ((classify seen values).filterMap savedValue) := by
  induction values generalizing before seen with
  | nil => exact .nil before
  | cons value _ ih =>
    have hlater : ∀ {entry : KnownEntry}, parseKnownEntry value = some entry →
        entry.signature ∈ seen → ¬Recognised before value := by
      rintro entry hentry hmem ⟨other, hother, hfirst⟩
      rw [hentry] at hother
      cases hother
      obtain ⟨earlier, hearlier, known, hknown, hsame⟩ := (hseen entry.signature).mp hmem
      exact hfirst earlier hearlier known hknown hsame
    have hmore : ∀ signature, (∃ other ∈ before ++ [value], ∃ known,
        parseKnownEntry other = some known ∧ known.signature = signature) ↔
        signature ∈ seen ∨ ∃ known, parseKnownEntry value = some known ∧
          known.signature = signature := by
      intro signature
      rw [hseen]
      simp only [List.mem_append, List.mem_singleton, or_and_right, exists_or, exists_eq_left]
    unfold classify
    rcases hparse : parseKnownEntry value with _ | entry
    · refine .other ?_ (ih fun signature => ?_)
      · rintro ⟨entry, hentry, _⟩
        rw [hparse] at hentry
        cases hentry
      · rw [hmore, hparse]
        simp
    · dsimp only
      split
      next hmem =>
        refine .other (hlater hparse hmem) (ih fun signature => ?_)
        rw [hmore, hparse]
        constructor
        · exact Or.inl
        · rintro (hold | ⟨known, hknown, rfl⟩)
          · exact hold
          · cases hknown
            exact hmem
      next hfresh =>
        have hvalue : savedValue (.known entry) = some (knownToValue entry) :=
          if_pos (parseKnownEntry_some hparse).1.persist
        rw [List.filterMap_cons_some hvalue]
        refine .recognised ⟨entry, hparse, fun other hother known hknown hsame => ?_⟩
          (kept_knownToValue hparse) (ih fun signature => ?_)
        · exact hfresh ((hseen entry.signature).mpr ⟨other, hother, known, hknown, hsame⟩)
        · rw [hmore, hparse, List.mem_cons]
          constructor
          · rintro (rfl | hold)
            · exact Or.inr ⟨entry, rfl, rfl⟩
            · exact Or.inl hold
          · rintro (hold | ⟨known, hknown, rfl⟩)
            · exact Or.inr hold
            · cases hknown
              exact Or.inl rfl

theorem updateFirst_cases (signature : Nat) (f : AddonConfig → AddonConfig)
    (entries : List ConfigEntry) :
    (∃ before entry after, entries = before ++ .known entry :: after ∧
      entry.signature = signature ∧ (∀ known, .known known ∈ before → known.signature ≠ signature) ∧
      updateFirst signature f entries =
        before ++ .known { entry with config := f entry.config } :: after) ∨
    (∀ known, .known known ∈ entries → known.signature ≠ signature) ∧
      updateFirst signature f entries =
        entries ++ [.known ⟨signature, f .registeredDefault, []⟩] := by
  induction entries with
  | nil => exact Or.inr ⟨nofun, rfl⟩
  | cons first rest ih =>
    have hskip : (∀ known, first = .known known → known.signature ≠ signature) →
        updateFirst signature f (first :: rest) = first :: updateFirst signature f rest := by
      intro hne
      cases first with
      | opaqueValue => rfl
      | known entry => exact if_neg (hne entry rfl)
    by_cases hfirst : ∃ entry, first = .known entry ∧ entry.signature = signature
    · obtain ⟨entry, rfl, hsame⟩ := hfirst
      exact Or.inl ⟨[], entry, rest, rfl, hsame, nofun, if_pos hsame⟩
    · have hne : ∀ known, first = .known known → known.signature ≠ signature :=
        fun known heq hsame => hfirst ⟨known, heq, hsame⟩
      rw [hskip hne]
      rcases ih with ⟨before, entry, after, rfl, hsame, hbefore, hupdate⟩ | ⟨hnone, hupdate⟩
      · refine Or.inl ⟨first :: before, entry, after, rfl, hsame, fun known hknown => ?_, ?_⟩
        · rcases List.mem_cons.mp hknown with heq | hmem
          · exact hne known heq.symm
          · exact hbefore known hmem
        · rw [hupdate]
          rfl
      · refine Or.inr ⟨fun known hknown => ?_, by rw [hupdate]; rfl⟩
        rcases List.mem_cons.mp hknown with heq | hmem
        · exact hne known heq.symm
        · exact hnone known hmem

/-- Two documents whose saved elements differ in the recognised one of a signature only; a change
registers it behind all others when there is none. -/
def ChangedAt (signature : Nat) (document next : AddonConfigDocument) : Prop :=
  ∃ before after old entry,
    document.entries = before ++ old ++ after ∧ next.entries = before ++ .known entry :: after ∧
      entry.signature = signature ∧
      (∀ known, .known known ∈ before → known.signature ≠ signature) ∧
      (old = [] ∧ after = [] ∨ ∃ known, old = [.known known] ∧ known.signature = signature ∧
        known.unknown = entry.unknown) ∧
      document.savedValues =
        before.filterMap savedValue ++ old.filterMap savedValue ++ after.filterMap savedValue ∧
      next.savedValues = before.filterMap savedValue ++ (savedValue (.known entry)).toList ++
        after.filterMap savedValue

theorem getOrInsert_changedAt {signature : Nat} {f : AddonConfig → AddonConfig}
    {document next : AddonConfigDocument} (h : document.getOrInsert signature f = .ok next) :
    ChangedAt signature document next := by
  unfold getOrInsert at h
  split at h
  next => cases h
  next =>
    cases h
    rcases updateFirst_cases signature f document.entries with
      ⟨before, entry, after, hentries, hsame, hbefore, hupdate⟩ | ⟨hnone, hupdate⟩
    · refine ⟨before, after, [.known entry], { entry with config := f entry.config }, ?_, hupdate,
        hsame, hbefore, Or.inr ⟨entry, rfl, hsame, rfl⟩, ?_, ?_⟩
      · rw [hentries]
        simp
      · unfold savedValues
        rw [hentries, ← List.filterMap_append, ← List.filterMap_append, List.append_assoc]
        rfl
      · unfold savedValues
        rw [hupdate, List.filterMap_append, List.filterMap_cons]
        cases savedValue (.known { entry with config := f entry.config }) with
        | none | some => simp
    · refine ⟨document.entries, [], [], ⟨signature, f .registeredDefault, []⟩, ?_, hupdate, rfl,
        hnone, Or.inl ⟨rfl, rfl⟩, ?_, ?_⟩
      · simp
      · unfold savedValues
        simp
      · unfold savedValues
        rw [hupdate, List.filterMap_append, List.filterMap_cons]
        cases savedValue (.known ⟨signature, f .registeredDefault, []⟩) with
        | none | some => simp

/-- A parsed document is saved with as many elements as it was read from and in their order. Those
that are not the first valid ones of their signatures are as they were; the others keep their
foreign members and mean the same. A change of one signature leaves the elements of all others
alone. -/
theorem parsed_document_preserved (json : JsonLibrary) {source : String}
    {document : AddonConfigDocument} (hparse : parse json source = .ok document) :
    (∃ values, json.parse source = some (.array values) ∧
      (∀ text, document.toJson json = .ok text →
        text = JsonText.render json.floatText 0 (.array document.savedValues) ++ "\n") ∧
      document.savedValues.length = values.length ∧
      ∀ before value after, values = before ++ value :: after →
        ∃ saved, document.savedValues[before.length]? = some saved ∧
          (Recognised before value → Kept value saved) ∧
          (¬Recognised before value → saved = value)) ∧
      ∀ (current next : AddonConfigDocument) (signature : Nat) (f : AddonConfig → AddonConfig),
        current.getOrInsert signature f = .ok next → ChangedAt signature current next := by
  refine ⟨?_, fun current next signature f => getOrInsert_changedAt⟩
  unfold parse at hparse
  split at hparse
  · cases hparse
  split at hparse
  · cases hparse
  next root hroot =>
  split at hparse
  · cases hparse
  next values hvalues =>
  split at hparse
  · cases hparse
  cases hparse
  have hsaved : SavedAs [] values ((classify [] values).filterMap savedValue) :=
    classify_savedAs values fun signature => ⟨nofun, nofun⟩
  refine ⟨values, ?_, fun text htext => ?_, hsaved.length_eq, fun before value after hsplit => ?_⟩
  · cases root with
    | array => rw [hroot, Option.some.inj hvalues]
    | _ => cases hvalues
  · unfold toJson at htext
    split at htext
    · cases htext
    · cases htext
      rfl
  · exact hsaved.at hsplit

/-- A library that reads one text, with a valid element, a later one of its signature and a mistyped
one. -/
def threeElements : List JsonValue :=
  [.object [("Future", .null), ("Signature", .number (.posInt 7))],
    .object [("IsLoaded", .bool true), ("Signature", .number (.posInt 7))],
    .object [("IsLoaded", .string "no"), ("Signature", .number (.posInt 8))]]

def threeElementsText : String :=
  "[\x7b\"Future\":null,\"Signature\":7\x7d,\x7b\"IsLoaded\":true,\"Signature\":7\x7d," ++
    "\x7b\"IsLoaded\":\"no\",\"Signature\":8\x7d]"

def threeElementsReader : JsonLibrary where
  parse text := if text = threeElementsText then some (.array threeElements) else none
  floatText _ := "0.0"
  rereadFloat := id

theorem threeElements_preserved :
    ∃ document, parse threeElementsReader threeElementsText = .ok document ∧
      document.savedValues.length = 3 ∧
      ∃ saved, document.savedValues[2]? = some saved ∧
        saved = .object [("IsLoaded", .string "no"), ("Signature", .number (.posInt 8))] := by
  have hparse : parse threeElementsReader threeElementsText =
      .ok ⟨classify [] threeElements⟩ := by
    unfold parse
    rw [if_neg (by decide)]
    rfl
  obtain ⟨⟨values, hvalues, _, hlength, hat⟩, _⟩ :=
    parsed_document_preserved threeElementsReader hparse
  have hthree : values = threeElements := by
    have hread : threeElementsReader.parse threeElementsText = some (.array threeElements) := rfl
    rw [hread] at hvalues
    cases hvalues
    rfl
  subst hthree
  obtain ⟨saved, hsaved, _, hother⟩ := hat (threeElements.take 2) _ [] rfl
  refine ⟨_, hparse, hlength, saved, hsaved, hother ?_⟩
  rintro ⟨entry, hentry, _⟩
  cases hentry

end AddonConfigDocument

end Nexus
