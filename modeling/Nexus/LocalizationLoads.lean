import Nexus.Localization

namespace Nexus

open Fallible Nexus.Localization LocalizationService

def usableText (value : JsonValue) : Option String :=
  value.asStr.filter fun text => (validateCString text).isOk

def textIn (language identifier : String) (raw : RawLocale) : Option String :=
  if raw.identifier = language then (raw.texts.get? identifier).bind usableText else none

def baseText (documents : List RawLocale) (language identifier : String) : Option String :=
  (documents.filterMap (textIn language identifier)).getLast?

def Contributed (documents : List RawLocale) (language : String) : Prop :=
  ∃ raw ∈ documents, raw.identifier = language

instance (documents : List RawLocale) (language : String) :
    Decidable (Contributed documents language) :=
  inferInstanceAs (Decidable (∃ raw ∈ documents, raw.identifier = language))

theorem baseText_append (documents more : List RawLocale) (language identifier : String) :
    baseText (documents ++ more) language identifier =
      (baseText more language identifier).or (baseText documents language identifier) := by
  unfold baseText
  rw [List.filterMap_append, List.getLast?_append]

theorem contributed_append (documents more : List RawLocale) (language : String) :
    Contributed (documents ++ more) language ↔
      Contributed documents language ∨ Contributed more language := by
  unfold Contributed
  simp only [List.mem_append, or_and_right, exists_or]

def documentsOf (fromSlice : ByteArray → Option RawLocale) (asset : ByteArray) : List RawLocale :=
  ((fromSlice asset).filter accepted).toList

namespace Locale

def text (locale : Locale) (arena : List String) (identifier : String) : Option String :=
  (locale.texts.get? identifier).bind fun index => arena[index]?

def Within (locale : Locale) (arena : List String) : Prop :=
  ∀ identifier index, locale.texts.get? identifier = some index → index < arena.length

theorem Within.append {locale : Locale} {arena : List String} (h : locale.Within arena)
    (added : List String) : locale.Within (arena ++ added) := by
  intro identifier index hindex
  have hbound := h identifier index hindex
  rw [List.length_append]
  omega

theorem text_append {locale : Locale} {arena : List String} (h : locale.Within arena)
    (added : List String) (identifier : String) :
    locale.text (arena ++ added) identifier = locale.text arena identifier := by
  unfold text
  cases hindex : locale.texts.get? identifier with
  | none => rfl
  | some index => exact List.getElem?_append_left (h identifier index hindex)

end Locale

theorem usableText_of_string {value : JsonValue} {text : String} (h : value.asStr = some text) :
    usableText value = if (validateCString text).isOk then some text else none := by
  unfold usableText
  rw [h, Option.filter_some]

theorem retainCString_ok {text : String} (h : validateCString text = .ok ()) (arena : List String) :
    retainCString text arena = (.ok arena.length, arena ++ [text]) := by
  unfold retainCString
  rw [h]

variable {arena : List String}

theorem mergeText_spec {locale : Locale} (hwithin : locale.Within arena) (skipped : Nat)
    (item : String × JsonValue) :
    ∃ merged skipped' added, mergeText (locale, skipped) item arena =
        (.ok (merged, skipped'), arena ++ added) ∧ merged.Within (arena ++ added) ∧
      ∀ identifier, merged.text (arena ++ added) identifier =
        if item.1 = identifier then (usableText item.2).or (locale.text arena identifier)
        else locale.text arena identifier := by
  unfold mergeText
  cases hstr : item.2.asStr with
  | none =>
    refine ⟨locale, skipped + 1, [], by simp, hwithin.append [], fun identifier => ?_⟩
    simp [usableText, hstr]
  | some text =>
    have husable := usableText_of_string hstr
    dsimp only
    cases hvalid : validateCString text with
    | error =>
      refine ⟨locale, skipped + 1, [], by simp, hwithin.append [], fun identifier => ?_⟩
      rw [hvalid, if_neg (by simp [Except.isOk, Except.toBool])] at husable
      simp [husable]
    | ok =>
      refine ⟨{ locale with texts := locale.texts.put item.1 arena.length }, skipped, [text], ?_,
        ?_, fun identifier => ?_⟩
      · have hretained : mapError (fun _ => LocaleSourceError.assetUnreadable) (retainCString text)
            arena = (.ok arena.length, arena ++ [text]) := by
          rw [mapError_apply, retainCString_ok hvalid]
          rfl
        dsimp only
        rw [bind_of_ok hretained]
        rfl
      · intro identifier index hindex
        rw [SortedMap.get?_put] at hindex
        rw [List.length_append, List.length_singleton]
        split at hindex
        · cases hindex
          omega
        · have hbound := hwithin identifier index hindex
          omega
      · have hkept := Locale.text_append hwithin [text] identifier
        unfold Locale.text at hkept ⊢
        rw [SortedMap.get?_put]
        by_cases hkey : item.1 = identifier
        · rw [hvalid, if_pos (by simp [Except.isOk, Except.toBool])] at husable
          rw [if_pos hkey.symm, if_pos hkey, husable]
          simp
        · rw [if_neg (Ne.symm hkey), if_neg hkey]
          exact hkept

theorem foldlM_mergeText_spec (items : List (String × JsonValue))
    (hkeys : (items.map Prod.fst).Nodup) {locale : Locale} (hwithin : locale.Within arena)
    (skipped : Nat) :
    ∃ merged skipped' added, items.foldlM mergeText (locale, skipped) arena =
        (.ok (merged, skipped'), arena ++ added) ∧ merged.Within (arena ++ added) ∧
      ∀ identifier, merged.text (arena ++ added) identifier =
        ((SortedMap.find identifier items).bind usableText).or (locale.text arena identifier) := by
  induction items generalizing locale arena skipped with
  | nil =>
    refine ⟨locale, skipped, [], by simp, hwithin.append [], fun identifier => ?_⟩
    rw [List.append_nil]
    rfl
  | cons item _ ih =>
    obtain ⟨key, value⟩ := item
    rw [List.map_cons, List.nodup_cons] at hkeys
    obtain ⟨_, skipped', added, hfirst, hfirstWithin, hfirstText⟩ :=
      mergeText_spec hwithin skipped (key, value)
    obtain ⟨merged, skipped'', more, hmerged, hmergedWithin, hmergedText⟩ :=
      ih hkeys.2 hfirstWithin skipped'
    refine ⟨merged, skipped'', added ++ more, ?_, ?_, fun identifier => ?_⟩
    · rw [List.foldlM_cons, bind_of_ok hfirst, hmerged, List.append_assoc]
    · rw [← List.append_assoc]
      exact hmergedWithin
    · rw [← List.append_assoc, hmergedText, hfirstText, SortedMap.find]
      by_cases hkey : key = identifier
      · subst hkey
        rw [SortedMap.find_eq_none hkeys.1, if_pos rfl, if_pos rfl]
        rfl
      · rw [if_neg hkey, if_neg hkey]

def localeText (locales : SortedMap String Locale) (arena : List String)
    (language identifier : String) : Option String :=
  (locales.get? language).bind fun locale => locale.text arena identifier

def AllWithin (locales : SortedMap String Locale) (arena : List String) : Prop :=
  ∀ language locale, locales.get? language = some locale → locale.Within arena

variable {locales : SortedMap String Locale}

theorem AllWithin.append (h : AllWithin locales arena) (added : List String) :
    AllWithin locales (arena ++ added) :=
  fun language locale hlocale => (h language locale hlocale).append added

theorem localeText_append (h : AllWithin locales arena) (added : List String)
    (language identifier : String) :
    localeText locales (arena ++ added) language identifier =
      localeText locales arena language identifier := by
  unfold localeText
  cases hlocale : locales.get? language with
  | none => rfl
  | some locale => exact Locale.text_append (h language locale hlocale) added identifier

@[simp] theorem mergeLocale_texts (locale : Locale) (displayName : Option String) :
    (mergeLocale locale displayName).texts = locale.texts := by
  unfold mergeLocale
  split <;> rfl

@[simp] theorem nameLocale_texts (identifier : String) (locale : Locale) :
    (nameLocale identifier locale).texts = locale.texts := by
  unfold nameLocale
  split <;> rfl

structure Loads (documents : List RawLocale) (arena : List String)
    (locales : SortedMap String Locale) (added : List String) (loaded : SortedMap String Locale) :
    Prop where
  within : AllWithin loaded (arena ++ added)
  present : ∀ language, (loaded.get? language).isSome = true ↔
    (locales.get? language).isSome = true ∨ Contributed documents language
  text : ∀ language identifier, localeText loaded (arena ++ added) language identifier =
    (baseText documents language identifier).or (localeText locales arena language identifier)

theorem mergeAsset_spec (fromSlice : ByteArray → Option RawLocale)
    (hwithin : AllWithin locales arena) (report : LocaleLoadReport) (asset : ByteArray) :
    ∃ loaded report' added, mergeAsset fromSlice (locales, report) asset arena =
        (.ok (loaded, report'), arena ++ added) ∧
      Loads (documentsOf fromSlice asset) arena locales added loaded := by
  unfold mergeAsset documentsOf
  cases hraw : (fromSlice asset).filter accepted with
  | none =>
    refine ⟨locales, { report with skippedAssets := report.skippedAssets + 1 }, [], by simp,
      hwithin.append [], fun language => ?_, fun language identifier => ?_⟩
    · simp [Contributed]
    · rw [List.append_nil]
      rfl
  | some raw =>
    let before := (locales.get? raw.identifier).getD ⟨"", .empty⟩
    have hbefore : before.Within arena := by
      intro identifier index hindex
      cases hlocale : locales.get? raw.identifier with
      | none => simp [before, hlocale] at hindex
      | some locale =>
        refine hwithin raw.identifier locale hlocale identifier index ?_
        simpa [before, hlocale] using hindex
    have hstart : (mergeLocale before raw.displayName).Within arena := by
      intro identifier index hindex
      rw [mergeLocale_texts] at hindex
      exact hbefore identifier index hindex
    have hkeys : (raw.texts.toList.map Prod.fst).Nodup := raw.texts.sorted.imp fun h => ne_of_lt h
    obtain ⟨merged, skipped, added, hmerged, hmergedWithin, hmergedText⟩ :=
      foldlM_mergeText_spec raw.texts.toList hkeys hstart report.skippedTexts
    refine ⟨locales.put raw.identifier merged,
      { report with skippedTexts := skipped, loadedAssets := report.loadedAssets + 1 }, added, ?_,
      ?_, fun language => ?_, fun language identifier => ?_⟩
    · dsimp only
      rw [bind_of_ok hmerged]
      rfl
    · intro language locale hlocale
      rw [SortedMap.get?_put] at hlocale
      split at hlocale
      · cases hlocale
        exact hmergedWithin
      · exact (hwithin language locale hlocale).append added
    · rw [SortedMap.get?_put]
      by_cases hlanguage : language = raw.identifier
      · simp [hlanguage, Contributed]
      · simp [hlanguage, Contributed, Ne.symm hlanguage]
    · have hkept := localeText_append hwithin added language identifier
      unfold localeText at hkept ⊢
      rw [SortedMap.get?_put]
      by_cases hlanguage : language = raw.identifier
      · have hbase : baseText [raw] language identifier =
            (raw.texts.get? identifier).bind usableText := by
          unfold baseText textIn
          rw [List.filterMap_cons, if_pos hlanguage.symm]
          cases (raw.texts.get? identifier).bind usableText <;> rfl
        have hold : (mergeLocale before raw.displayName).text arena identifier =
            (locales.get? language).bind fun locale => locale.text arena identifier := by
          unfold Locale.text
          rw [mergeLocale_texts, hlanguage]
          cases hlocale : locales.get? raw.identifier with
          | none | some => simp [before, hlocale]
        rw [if_pos hlanguage, Option.toList_some, hbase, ← hold]
        exact hmergedText identifier
      · have hbase : baseText [raw] language identifier = none := by
          unfold baseText textIn
          rw [List.filterMap_cons, if_neg (Ne.symm hlanguage)]
          rfl
        rw [if_neg hlanguage, Option.toList_some, hbase]
        exact hkept

theorem Loads.trans {documents more : List RawLocale} {added added' : List String}
    {loaded loaded' : SortedMap String Locale} (h : Loads documents arena locales added loaded)
    (h' : Loads more (arena ++ added) loaded added' loaded') :
    Loads (documents ++ more) arena locales (added ++ added') loaded' := by
  refine ⟨?_, fun language => ?_, fun language identifier => ?_⟩
  · rw [← List.append_assoc]
    exact h'.within
  · rw [h'.present, h.present, contributed_append, or_assoc]
  · rw [← List.append_assoc, h'.text, h.text, baseText_append, Option.or_assoc]

theorem foldlM_mergeAsset_spec (fromSlice : ByteArray → Option RawLocale)
    (assets : List ByteArray) (hwithin : AllWithin locales arena) (report : LocaleLoadReport) :
    ∃ loaded report' added, assets.foldlM (mergeAsset fromSlice) (locales, report) arena =
        (.ok (loaded, report'), arena ++ added) ∧
      Loads (assets.flatMap (documentsOf fromSlice)) arena locales added loaded := by
  induction assets generalizing locales arena report with
  | nil =>
    refine ⟨locales, report, [], by simp, hwithin.append [], fun language => ?_,
      fun language identifier => ?_⟩
    · simp [Contributed]
    · rw [List.append_nil]
      rfl
  | cons asset _ ih =>
    obtain ⟨_, report', added, hfirst, hloads⟩ :=
      mergeAsset_spec fromSlice hwithin report asset
    obtain ⟨loaded, report'', more, hrest, hmore⟩ := ih hloads.within report'
    refine ⟨loaded, report'', added ++ more, ?_, hloads.trans hmore⟩
    rw [List.foldlM_cons, bind_of_ok hfirst, hrest, List.append_assoc]

end Nexus
