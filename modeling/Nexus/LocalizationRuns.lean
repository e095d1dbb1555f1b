import Nexus.LocalizationLoads

namespace Nexus

open Fallible Nexus.Localization LocalizationService

abbrev TextEntry := LogEntry OwnerId (String × String) String

/-- What was asked of a service: the commands that wait, the sets and cleanups that were applied,
and the documents of the latest reload. -/
structure CommandLog where
  capacity : Nat
  pending : List Command
  applied : List TextEntry
  documents : List RawLocale

namespace CommandLog

def new (capacity : Nat) : CommandLog := ⟨capacity, [], [], []⟩

def push (command : Command) (history : CommandLog) : CommandLog :=
  if history.capacity ≤ history.pending.length then history
  else { history with pending := history.pending ++ [command] }

def entryOf (documents : List RawLocale) : Command → Option TextEntry
  | .set owner identifier language text =>
    if Contributed documents language then some (.set owner (language, identifier) text) else none
  | .setLanguage _ => none
  | .cleanup owner => some (.cleanup owner)

def advance (history : CommandLog) : CommandLog :=
  { history with
    pending := []
    applied := history.applied ++ history.pending.filterMap (entryOf history.documents) }

end CommandLog

inductive LocalizationOp where
  | set (owner : OwnerId) (identifier language text : String)
  | setLanguage (language : String)
  | setGameLanguage (language : Nat)
  | queueCleanup (owner : OwnerId)
  | cleanupOwner (owner : OwnerId)
  | reload (load : Except LocaleSourceError (List ByteArray))
  | advance

inductive Refusal where
  | command (error : LocalizationError)
  | source (error : LocaleSourceError)

namespace LocalizationOp

variable (fromSlice : ByteArray → Option RawLocale)

def silently {ε α : Type} (f : ε → Refusal) (work : Fallible LocalizationService ε α) :
    Fallible LocalizationService Refusal Unit := fun service =>
  ((work service).1.mapError f |>.map fun _ => (), (work service).2)

def call : LocalizationOp → Fallible LocalizationService Refusal Unit
  | .set owner identifier language text =>
    silently .command (LocalizationService.set owner identifier language text)
  | .setLanguage language => silently .command (LocalizationService.setLanguage language)
  | .setGameLanguage language => silently .command (LocalizationService.setGameLanguage language)
  | .queueCleanup owner => silently .command (LocalizationService.queueCleanup owner)
  | .cleanupOwner owner => silently .command (LocalizationService.cleanupOwner owner)
  | .reload load => silently .source (LocalizationService.reload fromSlice load)
  | .advance => modify fun service => service.advance.1

def native (texts : List String) : Bool := texts.all fun text => (validateCString text).isOk

def record : LocalizationOp → CommandLog → CommandLog
  | .set owner identifier language text, history =>
    if native [identifier, language, text] then
      history.push (.set owner identifier language text)
    else history
  | .setLanguage language, history =>
    if native [language] then history.push (.setLanguage language) else history
  | .setGameLanguage language, history =>
    (gameLanguage language).elim history fun identifier => history.push (.setLanguage identifier)
  | .queueCleanup owner, history => history.push (.cleanup owner)
  | .cleanupOwner owner, history =>
    if history.capacity ≤ history.pending.length then history
    else (history.push (.cleanup owner)).advance
  | .reload (.ok assets), history =>
    { history with documents := assets.flatMap (documentsOf fromSlice) }
  | .reload (.error _), history => history
  | .advance, history => history.advance

def runs (service : LocalizationService) (ops : List LocalizationOp) : LocalizationService :=
  ops.foldl (fun service op => (op.call fromSlice service).2) service

def records (history : CommandLog) (ops : List LocalizationOp) : CommandLog :=
  ops.foldl (fun history op => op.record fromSlice history) history

end LocalizationOp

def spoken (arena : List String) (entry : RuntimeOverride) : OwnerId × Option String :=
  (entry.owner, arena[entry.text]?)

structure Reflects (service : LocalizationService) (applied : List TextEntry)
    (documents : List RawLocale) : Prop where
  within : AllWithin service.locales service.arena
  present : ∀ language, (service.locales.get? language).isSome = true ↔
    Contributed documents language
  base : ∀ language identifier, localeText service.locales service.arena language identifier =
    baseText documents language identifier
  overrides : ∀ language identifier,
    (service.overridesOf language identifier).map (spoken service.arena) =
      (LogEntry.surviving applied (language, identifier)).map fun entry => (entry.1, some entry.2)
  ordered : ∀ language identifier, (service.overridesOf language identifier).Pairwise
    fun a b => a.sequence ≤ b.sequence
  below : ∀ language identifier, ∀ entry ∈ service.overridesOf language identifier,
    entry.sequence ≤ service.nextSequence

theorem latestOverride_eq {entries : List RuntimeOverride}
    (h : entries.Pairwise fun a b => a.sequence ≤ b.sequence) :
    latestOverride entries = entries.getLast? := by
  induction entries using List.reverseRecOn with
  | nil => rfl
  | append_singleton entries entry ih =>
    obtain ⟨hbefore, _, hlast⟩ := List.pairwise_append.mp h
    unfold latestOverride at ih ⊢
    rw [List.foldl_append, ih hbefore, List.getLast?_concat]
    cases hfound : entries.getLast? with
    | none => rfl
    | some found =>
      have hle : found.sequence ≤ entry.sequence :=
        hlast found (List.mem_of_getLast? hfound) entry List.mem_cons_self
      show newer (some found) entry = some entry
      unfold newer
      exact if_neg (not_lt.mpr hle)

theorem le_saturatingSucc (n : Fin (2 ^ 64)) : n ≤ saturatingSucc n := by
  unfold saturatingSucc
  split
  · exact Fin.le_iff_val_le_val.mpr (Nat.le_succ n)
  · exact le_refl n

namespace Reflects

variable {service : LocalizationService} {applied : List TextEntry} {documents : List RawLocale}

theorem retained (h : Reflects service applied documents) {language identifier : String}
    {entry : RuntimeOverride} (hentry : entry ∈ service.overridesOf language identifier) :
    entry.text < service.arena.length := by
  have hmem : spoken service.arena entry ∈
      (LogEntry.surviving applied (language, identifier)).map
        fun entry => (entry.1, some entry.2) := by
    rw [← h.overrides]
    exact List.mem_map_of_mem hentry
  obtain ⟨_, _, heq⟩ := List.mem_map.mp hmem
  exact (List.getElem?_eq_some_iff.mp (congrArg Prod.snd heq).symm).1

theorem map_spoken (h : Reflects service applied documents) (added : List String)
    (language identifier : String) :
    (service.overridesOf language identifier).map (spoken (service.arena ++ added)) =
      (LogEntry.surviving applied (language, identifier)).map
        fun entry => (entry.1, some entry.2) := by
  rw [← h.overrides]
  refine List.map_congr_left fun entry hentry => ?_
  unfold spoken
  rw [List.getElem?_append_left (h.retained hentry)]

theorem lookup_eq (h : Reflects service applied documents) (language identifier : String) :
    service.lookup language identifier =
      if Contributed documents language then
        ((LogEntry.surviving applied (language, identifier)).getLast?.map Prod.snd).or
          (baseText documents language identifier)
      else none := by
  have hpresent := h.present language
  have hbase := h.base language identifier
  have hlatest := latestOverride_eq (h.ordered language identifier)
  have hlast := congrArg List.getLast? (h.overrides language identifier)
  rw [List.getLast?_map, List.getLast?_map, ← hlatest] at hlast
  unfold LocalizationService.lookup
  cases hlocale : service.locales.get? language with
  | none =>
    rw [hlocale] at hpresent
    rw [if_neg fun hcontributed => absurd (hpresent.mpr hcontributed) (by simp)]
    rfl
  | some locale =>
    rw [hlocale] at hpresent
    rw [if_pos (hpresent.mp rfl), ← hbase]
    unfold localeText Locale.text
    rw [hlocale]
    show Option.bind (((latestOverride (service.overridesOf language identifier)).map
      RuntimeOverride.text).or (locale.texts.get? identifier)) _ = _
    cases hsurviving : (LogEntry.surviving applied (language, identifier)).getLast? with
    | none =>
      rw [hsurviving, Option.map_none, Option.map_eq_none_iff] at hlast
      rw [hlast]
      rfl
    | some =>
      rw [hsurviving] at hlast
      obtain ⟨_, hentry, hspoken⟩ := Option.map_eq_some_iff.mp hlast
      rw [hentry]
      exact congrArg Prod.snd hspoken

end Reflects

def Native : Command → Prop
  | .set _ _ _ text => validateCString text = .ok ()
  | _ => True

theorem overridesOf_put (service : LocalizationService) (language identifier : String)
    (entries : List RuntimeOverride) (arena : List String) (sequence : Fin (2 ^ 64))
    (language' identifier' : String) :
    { service with
      arena
      nextSequence := sequence
      overrides := service.overrides.put language
        (((service.overrides.get? language).getD .empty).put identifier entries) }.overridesOf
      language' identifier' = if (language', identifier') = (language, identifier) then entries
        else service.overridesOf language' identifier' := by
  unfold overridesOf
  dsimp only
  rw [SortedMap.get?_put]
  by_cases hlanguage : language' = language
  · subst hlanguage
    rw [if_pos rfl, Option.bind_some, SortedMap.get?_put]
    by_cases hidentifier : identifier' = identifier
    · simp [hidentifier]
    · cases hget : service.overrides.get? language' with
      | none | some => simp [hidentifier]
  · simp [hlanguage]

theorem map_spoken_filter (arena : List String) (owner : OwnerId) (entries : List RuntimeOverride) :
    (entries.filter fun entry => entry.owner ≠ owner).map (spoken arena) =
      (entries.map (spoken arena)).filter fun said => said.1 ≠ owner := by
  rw [List.filter_map]
  rfl

theorem overridesOf_cleanup (owner : OwnerId) (service : LocalizationService)
    (report : AdvanceReport) (language identifier : String) :
    (applyCleanup owner service report).1.overridesOf language identifier =
      (service.overridesOf language identifier).filter fun entry => entry.owner ≠ owner := by
  unfold applyCleanup overridesOf
  dsimp only
  rw [SortedMap.get?_filter, SortedMap.get?_mapValues]
  cases htexts : service.overrides.get? language with
  | none => rfl
  | some texts =>
    have hget : ((texts.mapValues (withoutOwner owner)).filter
        fun _ entries => !entries.isEmpty).get? identifier =
          ((texts.get? identifier).map (withoutOwner owner)).filter
            fun entries => !entries.isEmpty := by
      rw [SortedMap.get?_filter, SortedMap.get?_mapValues]
    have hkept : (((texts.get? identifier).map (withoutOwner owner)).filter
        fun entries => !entries.isEmpty).getD [] =
          ((texts.get? identifier).getD []).filter fun entry => entry.owner ≠ owner := by
      cases texts.get? identifier with
      | none => rfl
      | some entries =>
        show (Option.filter _ (some (withoutOwner owner entries))).getD [] =
          withoutOwner owner entries
        cases withoutOwner owner entries <;> rfl
    rw [Option.map_some, Option.filter_some]
    split
    next =>
      rw [Option.bind_some, Option.bind_some, hget]
      exact hkept
    next hempty =>
      -- No text of the language is left.
      have hnil : ((texts.mapValues (withoutOwner owner)).filter
          fun _ entries => !entries.isEmpty).toList = [] := by simpa using hempty
      have hnone : ((texts.mapValues (withoutOwner owner)).filter
          fun _ entries => !entries.isEmpty).get? identifier = none := by
        unfold SortedMap.get?
        rw [hnil]
        rfl
      rw [hget] at hnone
      rw [hnone] at hkept
      exact hkept

structure Applies (service next : LocalizationService) (applied : List TextEntry)
    (documents : List RawLocale) : Prop where
  reflects : Reflects next applied documents
  queue : next.queue = service.queue
  arena : service.arena <+: next.arena

theorem applies_set {service : LocalizationService} {applied : List TextEntry}
    {documents : List RawLocale} (h : Reflects service applied documents) {text : String}
    (hnative : validateCString text = .ok ()) (owner : OwnerId) (identifier language : String)
    (report : AdvanceReport) :
    Applies service (applySet owner identifier language text service report).1
      (applied ++ [.set owner (language, identifier) text]) documents := by
  have hmap := h.map_spoken [text]
  have hsequence := le_saturatingSucc service.nextSequence
  unfold applySet
  rw [retainCString_ok hnative]
  refine ⟨⟨h.within.append [text], h.present, fun language' identifier' => ?_,
    fun language' identifier' => ?_, fun language' identifier' => ?_,
    fun language' identifier' entry hentry => ?_⟩, rfl, List.prefix_append ..⟩
  · rw [← h.base]
    exact localeText_append h.within [text] language' identifier'
  · rw [overridesOf_put, LogEntry.surviving_concat, LogEntry.keep]
    by_cases hkey : (language', identifier') = (language, identifier)
    · cases hkey
      rw [if_pos rfl, if_pos rfl, List.map_append, List.map_append, map_spoken_filter, hmap,
        List.filter_map]
      simp [spoken, Function.comp_def]
    · rw [if_neg hkey, if_neg (Ne.symm hkey)]
      exact hmap language' identifier'
  · rw [overridesOf_put]
    split
    next =>
      refine List.pairwise_append.mpr ⟨(h.ordered language identifier).sublist List.filter_sublist,
        List.pairwise_singleton .., fun entry hentry other hother => ?_⟩
      rw [List.mem_singleton.mp hother]
      exact (h.below language identifier entry (List.mem_of_mem_filter hentry)).trans hsequence
    next => exact h.ordered language' identifier'
  · rw [overridesOf_put] at hentry
    split at hentry
    next =>
      rcases List.mem_append.mp hentry with hentry | hentry
      · exact (h.below language identifier entry (List.mem_of_mem_filter hentry)).trans hsequence
      · rw [List.mem_singleton.mp hentry]
    next => exact (h.below language' identifier' entry hentry).trans hsequence

theorem applies_cleanup {service : LocalizationService} {applied : List TextEntry}
    {documents : List RawLocale} (h : Reflects service applied documents) (owner : OwnerId)
    (report : AdvanceReport) :
    Applies service (applyCleanup owner service report).1 (applied ++ [.cleanup owner])
      documents := by
  refine ⟨⟨h.within, h.present, h.base, fun language identifier => ?_,
    fun language identifier => ?_, fun language identifier entry hentry => ?_⟩, rfl,
    List.prefix_refl _⟩
  · rw [overridesOf_cleanup, LogEntry.surviving_concat, LogEntry.keep]
    show (List.filter _ _).map (spoken service.arena) = _
    rw [map_spoken_filter, h.overrides, List.filter_map]
    rfl
  · rw [overridesOf_cleanup]
    exact (h.ordered language identifier).sublist List.filter_sublist
  · rw [overridesOf_cleanup] at hentry
    exact h.below language identifier entry (List.mem_of_mem_filter hentry)

theorem applies_language {service : LocalizationService} {applied : List TextEntry}
    {documents : List RawLocale} (h : Reflects service applied documents) (language : String)
    (report : AdvanceReport) :
    Applies service (applyLanguage language service report).1 applied documents := by
  unfold applyLanguage
  split
  · exact ⟨⟨h.within, h.present, h.base, h.overrides, h.ordered, h.below⟩, rfl, List.prefix_refl _⟩
  · exact ⟨⟨h.within, h.present, h.base, h.overrides, h.ordered, h.below⟩, rfl, List.prefix_refl _⟩

theorem applies_command {state : LocalizationService × AdvanceReport} {applied : List TextEntry}
    {documents : List RawLocale} (h : Reflects state.1 applied documents) {command : Command}
    (hnative : Native command) :
    Applies state.1 (apply state command).1
      (applied ++ (CommandLog.entryOf documents command).toList) documents := by
  cases command with
  | set owner identifier language =>
    unfold apply CommandLog.entryOf
    dsimp only
    by_cases hpresent : (state.1.locales.get? language).isSome = true
    · rw [if_pos hpresent, if_pos ((h.present language).mp hpresent)]
      exact applies_set h hnative owner identifier language state.2
    · have hmissing : ¬Contributed documents language := fun hcontributed =>
        hpresent ((h.present language).mpr hcontributed)
      rw [if_neg hpresent, if_neg hmissing, Option.toList_none, List.append_nil]
      exact ⟨h, rfl, List.prefix_refl _⟩
  | setLanguage language =>
    unfold CommandLog.entryOf
    rw [Option.toList_none, List.append_nil]
    exact applies_language h language state.2
  | cleanup owner => exact applies_cleanup h owner state.2

theorem applies_commands (commands : List Command) {state : LocalizationService × AdvanceReport}
    {applied : List TextEntry} {documents : List RawLocale}
    (h : Reflects state.1 applied documents) (hnative : ∀ command ∈ commands, Native command) :
    Applies state.1 (commands.foldl apply state).1
      (applied ++ commands.filterMap (CommandLog.entryOf documents)) documents := by
  induction commands generalizing state applied with
  | nil =>
    rw [List.filterMap_nil, List.append_nil]
    exact ⟨h, rfl, List.prefix_refl _⟩
  | cons command commands ih =>
    obtain ⟨hcommand, hcommands⟩ := List.forall_mem_cons.mp hnative
    obtain ⟨hfirst, hqueue, harena⟩ := applies_command h hcommand
    obtain ⟨hrest, hqueue', harena'⟩ := ih hfirst hcommands
    have hentries : applied ++ (command :: commands).filterMap (CommandLog.entryOf documents) =
        applied ++ (CommandLog.entryOf documents command).toList ++
          commands.filterMap (CommandLog.entryOf documents) := by
      rw [List.filterMap_cons]
      cases CommandLog.entryOf documents command <;> simp
    rw [hentries]
    exact ⟨hrest, hqueue'.trans hqueue, harena.trans harena'⟩

structure Agrees (service : LocalizationService) (history : CommandLog) : Prop where
  reflects : Reflects service history.applied history.documents
  queue : service.queue = ⟨history.capacity, history.pending⟩
  native : ∀ command ∈ history.pending, Native command

structure KeepsAgreement {ε α : Type} (work : Fallible LocalizationService ε α)
    (service : LocalizationService) (history : CommandLog) : Prop where
  agrees : Agrees (work service).2 history
  arena : service.arena <+: (work service).2.arena
  refused : ∀ error, (work service).1 = .error error → (work service).2 = service

theorem KeepsAgreement.silently {ε α : Type} {work : Fallible LocalizationService ε α}
    {service : LocalizationService} {history : CommandLog} (h : KeepsAgreement work service history)
    (f : ε → Refusal) : KeepsAgreement (LocalizationOp.silently f work) service history := by
  refine ⟨h.agrees, h.arena, fun error herror => ?_⟩
  cases hresult : (work service).1 with
  | error found => exact h.refused found hresult
  | ok =>
    have hsilent : (LocalizationOp.silently f work service).1 = .ok () := by
      show ((work service).1.mapError f).map _ = _
      rw [hresult]
      rfl
    rw [hsilent] at herror
    cases herror

section Calls

variable {service : LocalizationService} {history : CommandLog}

theorem KeepsAgreement.nothing (h : Agrees service history) {ε α : Type} (result : Except ε α) :
    KeepsAgreement (fun service => (result, service)) service history :=
  ⟨h, List.prefix_refl _, fun _ _ => rfl⟩

theorem follows_push (h : Agrees service history) {command : Command} (hnative : Native command) :
    KeepsAgreement (push command) service (history.push command) := by
  have hqueue := h.queue
  by_cases hfull : history.capacity ≤ history.pending.length
  · have hpush : push command service = (.error .queueFull, service) := by
      unfold push
      rw [hqueue]
      exact if_pos hfull
    have hsame : history.push command = history := if_pos hfull
    rw [hsame]
    refine ⟨?_, ?_, fun _ _ => ?_⟩ <;> rw [hpush]
    · exact h
  · have hpush : push command service = (.ok (), { service with
        queue := ⟨history.capacity, history.pending ++ [command]⟩ }) := by
      unfold push
      rw [hqueue]
      exact if_neg hfull
    have hnext : history.push command =
        { history with pending := history.pending ++ [command] } := if_neg hfull
    obtain ⟨hwithin, hpresent, hbase, hoverrides, hordered, hbelow⟩ := h.reflects
    rw [hnext]
    refine ⟨?_, ?_, fun error herror => ?_⟩
    · rw [hpush]
      refine ⟨⟨hwithin, hpresent, hbase, hoverrides, hordered, hbelow⟩, rfl, fun other hmem => ?_⟩
      rcases List.mem_append.mp hmem with hmem | hmem
      · exact h.native other hmem
      · rw [List.mem_singleton.mp hmem]
        exact hnative
    · rw [hpush]
    · rw [hpush] at herror
      cases herror

theorem KeepsAgreement.checked {α : Type} {work : Fallible LocalizationService LocalizationError α}
    {history' : CommandLog} (h : Agrees service history) (text : String)
    (hwork : validateCString text = .ok () → KeepsAgreement work service history') :
    KeepsAgreement (ofExcept id (validateCString text) >>= fun _ => work) service
      (if (validateCString text).isOk then history' else history) := by
  cases hvalid : validateCString text with
  | error => exact ⟨h, List.prefix_refl _, fun _ _ => rfl⟩
  | ok => exact hwork hvalid

theorem follows_set (h : Agrees service history) (owner : OwnerId)
    (identifier language text : String) :
    KeepsAgreement (LocalizationService.set owner identifier language text) service
      (if LocalizationOp.native [identifier, language, text] then
        history.push (.set owner identifier language text) else history) := by
  have hset : KeepsAgreement (LocalizationService.set owner identifier language text) service
      (if (validateCString identifier).isOk then
        if (validateCString language).isOk then
          if (validateCString text).isOk then
            history.push (.set owner identifier language text) else history
        else history
      else history) :=
    .checked h identifier fun _ => .checked h language fun _ => .checked h text fun hnative =>
      follows_push h hnative
  have hall : LocalizationOp.native [identifier, language, text] =
      ((validateCString identifier).isOk &&
        ((validateCString language).isOk && (validateCString text).isOk)) := by
    simp [LocalizationOp.native]
  rw [hall]
  revert hset
  cases (validateCString identifier).isOk <;> cases (validateCString language).isOk <;>
    cases (validateCString text).isOk <;> exact id

theorem follows_setLanguage (h : Agrees service history) (language : String) :
    KeepsAgreement (LocalizationService.setLanguage language) service
      (if LocalizationOp.native [language] then history.push (.setLanguage language)
        else history) := by
  have hset : KeepsAgreement (LocalizationService.setLanguage language) service
      (if (validateCString language).isOk then history.push (.setLanguage language) else history) :=
    .checked h language fun _ => follows_push h trivial
  have hall : LocalizationOp.native [language] = (validateCString language).isOk := by
    simp [LocalizationOp.native]
  rw [hall]
  exact hset

theorem native_gameLanguage {language : Nat} {identifier : String}
    (h : gameLanguage language = some identifier) : LocalizationOp.native [identifier] = true := by
  unfold gameLanguage at h
  split at h <;> cases h <;> decide +kernel

theorem follows_setGameLanguage (h : Agrees service history) (language : Nat) :
    KeepsAgreement (LocalizationService.setGameLanguage language) service
      ((gameLanguage language).elim history fun identifier =>
        history.push (.setLanguage identifier)) := by
  unfold LocalizationService.setGameLanguage
  cases hidentifier : gameLanguage language with
  | none => exact .nothing h _
  | some identifier =>
    have hset := follows_setLanguage h identifier
    rw [if_pos (native_gameLanguage hidentifier)] at hset
    dsimp only [Option.elim]
    obtain ⟨hagrees, harena, hrefused⟩ := hset
    cases hresult : LocalizationService.setLanguage identifier service with
    | mk result =>
      rw [hresult] at hagrees harena hrefused
      cases result with
      | error error =>
        have hcall := bind_of_error hresult
          fun _ => (pure true : Fallible LocalizationService LocalizationError Bool)
        refine ⟨?_, ?_, fun _ _ => ?_⟩ <;> rw [hcall]
        · exact hagrees
        · exact harena
        · exact hrefused error rfl
      | ok =>
        have hcall := bind_of_ok hresult
          fun _ => (pure true : Fallible LocalizationService LocalizationError Bool)
        refine ⟨?_, ?_, fun _ hfalse => ?_⟩
        · rw [hcall]
          exact hagrees
        · rw [hcall]
          exact harena
        · rw [hcall] at hfalse
          cases hfalse

theorem agrees_advance (h : Agrees service history) :
    Agrees service.advance.1 history.advance ∧ service.arena <+: service.advance.1.arena := by
  have hstart : Reflects { service with queue := { service.queue with commands := [] } }
      history.applied history.documents := by
    obtain ⟨hwithin, hpresent, hbase, hoverrides, hordered, hbelow⟩ := h.reflects
    exact ⟨hwithin, hpresent, hbase, hoverrides, hordered, hbelow⟩
  have hcommands : service.queue.commands = history.pending := by rw [h.queue]
  have happlies := @applies_commands history.pending
    ({ service with queue := { service.queue with commands := [] } }, ⟨0, 0, 0, false, false⟩)
    history.applied history.documents hstart h.native
  unfold advance
  rw [hcommands]
  refine ⟨⟨happlies.reflects, ?_, by simp [CommandLog.advance]⟩, happlies.arena⟩
  rw [happlies.queue, h.queue]
  rfl

theorem follows_cleanupOwner (h : Agrees service history) (owner : OwnerId) :
    KeepsAgreement (LocalizationService.cleanupOwner owner) service
      (if history.capacity ≤ history.pending.length then history
        else (history.push (.cleanup owner)).advance) := by
  have hpushed : KeepsAgreement (push (.cleanup owner)) service (history.push (.cleanup owner)) :=
    follows_push h trivial
  obtain ⟨hagrees, harena, hrefused⟩ := hpushed
  unfold LocalizationService.cleanupOwner LocalizationService.queueCleanup
  by_cases hfull : history.capacity ≤ history.pending.length
  · have hpush : push (.cleanup owner) service = (.error .queueFull, service) := by
      unfold push
      rw [h.queue]
      exact if_pos hfull
    have hcall := bind_of_error hpush fun _ service => (.ok service.advance.2, service.advance.1)
    rw [if_pos hfull]
    refine ⟨?_, ?_, fun _ _ => ?_⟩ <;> rw [hcall]
    · exact h
  · rw [if_neg hfull]
    cases hresult : push (.cleanup owner) service with
    | mk result =>
      rw [hresult] at hagrees harena hrefused
      cases result with
      | error =>
        exfalso
        unfold push at hresult
        rw [h.queue, if_neg hfull] at hresult
        cases hresult
      | ok =>
        have hcall := bind_of_ok hresult fun _ service => (.ok service.advance.2, service.advance.1)
        obtain ⟨hadvanced, harena'⟩ := agrees_advance hagrees
        refine ⟨?_, ?_, fun _ hfalse => ?_⟩
        · rw [hcall]
          exact hadvanced
        · rw [hcall]
          exact harena.trans harena'
        · rw [hcall] at hfalse
          cases hfalse

theorem localeText_named (locales : SortedMap String Locale) (arena : List String)
    (language identifier : String) :
    localeText (locales.mapEntries nameLocale) arena language identifier =
      localeText locales arena language identifier := by
  unfold localeText Locale.text
  rw [SortedMap.get?_mapEntries]
  cases locales.get? language with
  | none => rfl
  | some => simp

theorem AllWithin.named {locales : SortedMap String Locale} {arena : List String}
    (h : AllWithin locales arena) : AllWithin (locales.mapEntries nameLocale) arena := by
  intro language locale hlocale identifier index hindex
  rw [SortedMap.get?_mapEntries] at hlocale
  obtain ⟨found, hfound, rfl⟩ := Option.map_eq_some_iff.mp hlocale
  rw [nameLocale_texts] at hindex
  exact h language found hfound identifier index hindex

theorem follows_reload (fromSlice : ByteArray → Option RawLocale) (h : Agrees service history)
    (load : Except LocaleSourceError (List ByteArray)) :
    KeepsAgreement (LocalizationService.reload fromSlice load) service
      ((LocalizationOp.reload load).record fromSlice history) := by
  cases load with
  | error error => exact .nothing h (.error error)
  | ok assets =>
    have hempty : AllWithin .empty service.arena := fun _ _ hlocale => by cases hlocale
    obtain ⟨loaded, report, added, hfold, hloads⟩ :=
      foldlM_mergeAsset_spec fromSlice assets hempty ⟨0, 0, 0, 0⟩
    have hzoom : zoom arena (fun arena service => { service with arena })
        (assets.foldlM (mergeAsset fromSlice) (.empty, ⟨0, 0, 0, 0⟩)) service =
          (.ok (loaded, report), { service with arena := service.arena ++ added }) := by
      rw [zoom_apply, hfold]
    have hcall : LocalizationService.reload fromSlice (.ok assets) service =
        (.ok { report with locales := loaded.toList.length },
          { service with
            arena := service.arena ++ added
            locales := loaded.mapEntries nameLocale }.resolveRequestedLanguage) := by
      show (zoom arena _ _ >>= _) service = _
      rw [bind_of_ok hzoom]
      rfl
    have hreflects := h.reflects
    refine ⟨?_, ?_, fun _ hfalse => ?_⟩
    · rw [hcall]
      refine ⟨⟨hloads.within.named, fun language => ?_, fun language identifier => ?_,
        hreflects.map_spoken added, hreflects.ordered, hreflects.below⟩, h.queue, h.native⟩
      · have hpresent := hloads.present language
        rw [show ((LocalizationOp.reload (.ok assets)).record fromSlice history).documents =
          assets.flatMap (documentsOf fromSlice) from rfl]
        show ((loaded.mapEntries nameLocale).get? language).isSome = true ↔ _
        rw [SortedMap.get?_mapEntries, Option.isSome_map, hpresent]
        simp
      · have htext := hloads.text language identifier
        show localeText (loaded.mapEntries nameLocale) (service.arena ++ added) language
          identifier = _
        rw [localeText_named, htext]
        exact Option.or_none
    · rw [hcall]
      exact List.prefix_append ..
    · rw [hcall] at hfalse
      cases hfalse

theorem follows_call (fromSlice : ByteArray → Option RawLocale) (h : Agrees service history)
    (op : LocalizationOp) : KeepsAgreement (op.call fromSlice) service (op.record fromSlice history) := by
  cases op with
  | set owner identifier language text =>
    exact (follows_set h owner identifier language text).silently _
  | setLanguage language => exact (follows_setLanguage h language).silently _
  | setGameLanguage language => exact (follows_setGameLanguage h language).silently _
  | queueCleanup owner =>
    have hpush : KeepsAgreement (LocalizationService.queueCleanup owner) service
        (history.push (.cleanup owner)) := follows_push h trivial
    exact hpush.silently _
  | cleanupOwner owner => exact (follows_cleanupOwner h owner).silently _
  | reload load => exact (follows_reload fromSlice h load).silently _
  | advance =>
    obtain ⟨hagrees, harena⟩ := agrees_advance h
    exact ⟨hagrees, harena, fun _ hfalse => (by cases hfalse)⟩

theorem agrees_runs (fromSlice : ByteArray → Option RawLocale) (ops : List LocalizationOp)
    (h : Agrees service history) :
    Agrees (LocalizationOp.runs fromSlice service ops)
        (LocalizationOp.records fromSlice history ops) ∧
      service.arena <+: (LocalizationOp.runs fromSlice service ops).arena := by
  induction ops generalizing service history with
  | nil => exact ⟨h, List.prefix_refl _⟩
  | cons op _ ih =>
    have hop := follows_call fromSlice h op
    obtain ⟨hagrees, harena⟩ := ih hop.agrees
    exact ⟨hagrees, hop.arena.trans harena⟩

end Calls

theorem reflects_empty {service : LocalizationService} (hlocales : service.locales = .empty)
    (hoverrides : service.overrides = .empty) : Reflects service [] [] := by
  have hnone : ∀ language identifier, service.overridesOf language identifier = [] := by
    intro language identifier
    unfold overridesOf
    rw [hoverrides]
    rfl
  refine ⟨fun language locale hlocale => ?_, fun language => ?_, fun language identifier => ?_,
    fun language identifier => ?_, fun language identifier => ?_,
    fun language identifier entry hentry => ?_⟩
  · rw [hlocales] at hlocale
    cases hlocale
  · rw [hlocales]
    simp [Contributed]
  · rw [localeText, hlocales]
    rfl
  · rw [hnone]
    rfl
  · rw [hnone]
    exact .nil
  · rw [hnone] at hentry
    cases hentry

theorem agrees_new {defaultLanguage : String} {capacity : Nat} {service : LocalizationService}
    (h : LocalizationService.new defaultLanguage capacity = .ok service) :
    Agrees service (.new capacity) := by
  obtain ⟨_, _, hnew⟩ := except_bind_ok h
  split at hnew
  next => cases hnew
  next =>
    cases hnew
    exact ⟨reflects_empty rfl rfl, rfl, fun _ hmem => (by cases hmem)⟩

def candidates (service : LocalizationService) : List (String × String) :=
  service.locales.toList.flatMap fun item =>
    (service.identifiersOf item.1 item.2).map fun identifier => (item.1, identifier)

theorem allTexts_eq (service : LocalizationService) : service.allTexts =
    (candidates service).filterMap fun pair => service.lookup pair.1 pair.2 := by
  unfold allTexts candidates
  rw [List.filterMap_flatMap]
  refine List.flatMap_congr fun item _ => ?_
  rw [List.filterMap_map]
  rfl

theorem nodup_candidates (service : LocalizationService) : (candidates service).Nodup := by
  unfold candidates
  refine List.nodup_flatMap.mpr ⟨fun item _ => ?_, ?_⟩
  · exact (Finset.sort_nodup _ _).map fun _ _ h => (Prod.mk.inj h).2
  · have hkeys := List.pairwise_map.mp service.locales.sorted
    refine hkeys.imp fun {a b} hlt => ?_
    intro pair ha hb
    obtain ⟨_, _, rfl⟩ := List.mem_map.mp ha
    obtain ⟨_, _, heq⟩ := List.mem_map.mp hb
    exact absurd (Prod.mk.inj heq).1 (ne_of_gt hlt)

theorem mem_keys {ν : Type} {map : SortedMap String ν} {key : String} {value : ν}
    (h : map.get? key = some value) : key ∈ map.toList.map Prod.fst :=
  List.mem_map_of_mem (SortedMap.get?_mem h)

theorem mem_candidates {service : LocalizationService} {language identifier : String}
    (h : (service.lookup language identifier).isSome = true) :
    (language, identifier) ∈ candidates service := by
  obtain ⟨_, htext⟩ := Option.isSome_iff_exists.mp h
  obtain ⟨locale, hlocale, hindex⟩ := Option.bind_eq_some_iff.mp htext
  obtain ⟨_, hindex, _⟩ := Option.bind_eq_some_iff.mp hindex
  have hidentifier : identifier ∈ service.identifiersOf language locale := by
    unfold identifiersOf
    rw [Finset.mem_sort, Finset.mem_union, List.mem_toFinset, List.mem_toFinset]
    cases hlatest : latestOverride (service.overridesOf language identifier) with
    | none =>
      rw [hlatest] at hindex
      exact .inl (mem_keys hindex)
    | some =>
      refine .inr ?_
      cases htexts : service.overrides.get? language with
      | none => simp [overridesOf, htexts, latestOverride] at hlatest
      | some texts =>
        cases hentries : texts.get? identifier with
        | none => simp [overridesOf, htexts, hentries, latestOverride] at hlatest
        | some => exact mem_keys hentries
  exact List.mem_flatMap.mpr ⟨(language, locale), SortedMap.get?_mem hlocale,
    List.mem_map_of_mem hidentifier⟩

theorem allTexts_spec (service : LocalizationService) :
    ∃ pairs : List (String × String), pairs.Nodup ∧
      (∀ pair, pair ∈ pairs ↔ (service.lookup pair.1 pair.2).isSome = true) ∧
      service.allTexts = pairs.filterMap fun pair => service.lookup pair.1 pair.2 := by
  refine ⟨(candidates service).filter fun pair => (service.lookup pair.1 pair.2).isSome,
    (nodup_candidates service).filter _, fun pair => ?_, ?_⟩
  · rw [List.mem_filter]
    exact ⟨fun h => h.2, fun h => ⟨mem_candidates h, h⟩⟩
  · rw [allTexts_eq, List.filterMap_filter]
    refine List.filterMap_congr fun pair _ => ?_
    cases service.lookup pair.1 pair.2 <;> rfl

theorem fromUTF8?_toUTF8 (text : String) : String.fromUTF8? text.toUTF8 = some text := by
  unfold String.fromUTF8?
  rw [String.toUTF8_eq_toByteArray, dif_pos text.isValidUTF8]
  rfl

theorem translate_of_lookup {service : LocalizationService} {language identifier text : String}
    (h : service.lookup language identifier = some text) :
    service.translate identifier.toUTF8 (some language.toUTF8) = text.toUTF8 := by
  unfold LocalizationService.translate
  rw [fromUTF8?_toUTF8]
  dsimp only
  rw [Option.bind_some, fromUTF8?_toUTF8, Option.bind_some, h]
  rfl

/-- In every run the text of a present locale is that of the most recent set that stands, or else
the last base text; a refused call changes nothing, and what is retained stays. -/
theorem translations_follow_log (fromSlice : ByteArray → Option RawLocale)
    {defaultLanguage : String} {capacity : Nat} {service : LocalizationService}
    (hnew : LocalizationService.new defaultLanguage capacity = .ok service)
    (ops : List LocalizationOp) :
    (∀ language identifier,
      Contributed (LocalizationOp.records fromSlice (.new capacity) ops).documents language →
      ∀ text, (LocalizationOp.runs fromSlice service ops).lookup language identifier = some text ↔
        LogEntry.Latest (LocalizationOp.records fromSlice (.new capacity) ops).applied
            (language, identifier) text ∨
          (∀ place owner found, ¬LogEntry.Stands
            (LocalizationOp.records fromSlice (.new capacity) ops).applied (language, identifier)
              place owner found) ∧
          baseText (LocalizationOp.records fromSlice (.new capacity) ops).documents language
            identifier = some text) ∧
    (∀ language identifier text,
      (LocalizationOp.runs fromSlice service ops).lookup language identifier = some text →
      (LocalizationOp.runs fromSlice service ops).translate identifier.toUTF8
        (some language.toUTF8) = text.toUTF8) ∧
    (∃ pairs : List (String × String), pairs.Nodup ∧
      (∀ pair, pair ∈ pairs ↔
        Contributed (LocalizationOp.records fromSlice (.new capacity) ops).documents pair.1 ∧
          ((LocalizationOp.runs fromSlice service ops).lookup pair.1 pair.2).isSome = true) ∧
      (LocalizationOp.runs fromSlice service ops).allTexts = pairs.filterMap fun pair =>
        (LocalizationOp.runs fromSlice service ops).lookup pair.1 pair.2) ∧
    (∀ (op : LocalizationOp) error,
      (op.call fromSlice (LocalizationOp.runs fromSlice service ops)).1 = .error error →
      (op.call fromSlice (LocalizationOp.runs fromSlice service ops)).2 =
        LocalizationOp.runs fromSlice service ops) ∧
    ∀ (later : List LocalizationOp) (index : Nat) (text : String),
      (LocalizationOp.runs fromSlice service ops).arena[index]? = some text →
      (LocalizationOp.runs fromSlice service (ops ++ later)).arena[index]? = some text := by
  have hagrees := (agrees_runs fromSlice ops (agrees_new hnew)).1
  have hlookup := hagrees.reflects.lookup_eq
  refine ⟨fun language identifier hcontributed text => ?_, fun _ _ _ => translate_of_lookup,
    ?_, fun op error herror => ?_, fun later index text htext => ?_⟩
  · rw [hlookup, if_pos hcontributed, ← LogEntry.surviving_latest, ← LogEntry.surviving_none]
    cases hlast : (LogEntry.surviving (LocalizationOp.records fromSlice (.new capacity) ops).applied
        (language, identifier)).getLast? with
    | none => simp
    | some said =>
      obtain ⟨owner, found⟩ := said
      simp
  · obtain ⟨pairs, hnodup, hmem, htexts⟩ :=
      allTexts_spec (LocalizationOp.runs fromSlice service ops)
    refine ⟨pairs, hnodup, fun pair => ?_, htexts⟩
    rw [hmem]
    refine ⟨fun hsome => ⟨?_, hsome⟩, fun h => h.2⟩
    by_contra hmissing
    rw [hlookup, if_neg hmissing] at hsome
    cases hsome
  · exact (follows_call fromSlice hagrees op).refused error herror
  · have hruns : LocalizationOp.runs fromSlice service (ops ++ later) =
        LocalizationOp.runs fromSlice (LocalizationOp.runs fromSlice service ops) later :=
      List.foldl_append
    obtain ⟨_, hadded⟩ := (agrees_runs fromSlice later hagrees).2
    rw [hruns, ← hadded, List.getElem?_append_left (List.getElem?_eq_some_iff.mp htext).1]
    exact htext

def greetings : ByteArray → Option RawLocale :=
  fun _ => some ⟨"en", none, SortedMap.empty.put "hello" (.string "Hello")⟩

/-- Two owners set a text of a locale that is read, and the later one is cleaned up. -/
def greetingOps : List LocalizationOp :=
  [.reload (.ok [ByteArray.empty]), .set ⟨7, 1⟩ "hello" "en" "Hi", .set ⟨7, 2⟩ "hello" "en" "Hey",
    .queueCleanup ⟨7, 2⟩, .advance]

def greetingService : LocalizationService :=
  ⟨.empty, [], .empty, none, "en", 0, ⟨8, []⟩⟩

theorem greeting_restored :
    (LocalizationOp.runs greetings greetingService greetingOps).lookup "en" "hello" =
      some "Hi" := by
  have hnew : LocalizationService.new "en" 8 = .ok greetingService := rfl
  obtain ⟨hlookup, _⟩ := translations_follow_log greetings hnew greetingOps
  have happlied : (LocalizationOp.records greetings (.new 8) greetingOps).applied =
      [.set ⟨7, 1⟩ ("en", "hello") "Hi", .set ⟨7, 2⟩ ("en", "hello") "Hey", .cleanup ⟨7, 2⟩] := by
    decide +kernel
  refine (hlookup "en" "hello" ?_ "Hi").mpr (.inl ?_)
  · decide +kernel
  · rw [happlied, ← LogEntry.surviving_latest]
    exact ⟨⟨7, 1⟩, by decide⟩

end Nexus
