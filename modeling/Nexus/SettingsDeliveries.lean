import Nexus.EventLog
import Nexus.SettingsUpdates

namespace Nexus.Settings

namespace SettingsWorld

/-- The call has delivered the value to the subscriber or is still going to. -/
def Carries (world : SettingsWorld) (id : Nat) (subscriber : Subscriber) (value : JsonValue) :
    Prop :=
  .entered id subscriber value ∈ world.log ∨
    ∃ (index : Nat) (call : Notification), world.calls[index]? = some call ∧ call.id = id ∧
      call.value = value ∧ subscriber ∈ call.pending

section Carried

variable {world : SettingsWorld} {id : Nat} {subscriber : Subscriber} {value : JsonValue}
  {told : JsonValue}

theorem carries_iff : Carries world id subscriber value ↔
    .entered id subscriber value ∈ world.log ∨
      ∃ call ∈ world.calls, call.id = id ∧ call.value = value ∧ subscriber ∈ call.pending := by
  refine or_congr_right ⟨?_, ?_⟩
  · rintro ⟨index, call, hcall, hold⟩
    exact ⟨call, List.mem_of_getElem? hcall, hold⟩
  · rintro ⟨call, hmem, hold⟩
    obtain ⟨index, hcall⟩ := List.mem_iff_getElem?.mp hmem
    exact ⟨index, call, hcall, hold⟩

theorem carries_notify {subscribers : List Subscriber} {write : Except SettingsError Unit} :
    Carries (notify told subscribers write world) id subscriber value ↔
      Carries world id subscriber value ∨
        (id = world.nextCall ∧ value = told ∧ subscriber ∈ subscribers) := by
  rw [carries_iff, carries_iff, or_assoc]
  unfold notify
  simp only [List.mem_cons, reduceCtorEq, false_or, List.mem_append, List.not_mem_nil, or_false,
    or_and_right, exists_or, exists_eq_left]
  rw [@eq_comm _ id, @eq_comm _ value]

theorem carries_recordRemoved {removed : List Subscriber} :
    Carries (recordRemoved removed world) id subscriber value ↔
      Carries world id subscriber value := by
  unfold Carries recordRemoved
  simp

variable {index caller : Nat} {pending : List Subscriber} {report after : NotificationReport}
  {persistence : Except SettingsError Unit}

theorem exists_set {calls : List Notification} {old : Notification}
    (hcall : calls[index]? = some old) (new : Notification) (P : Notification → Prop) :
    (∃ (other : Nat) (found : Notification), (calls.set index new)[other]? = some found ∧ P found) ↔
      P new ∨ ∃ (other : Nat) (found : Notification),
        other ≠ index ∧ calls[other]? = some found ∧ P found := by
  have hnew : (calls.set index new)[index]? = some new :=
    List.getElem?_set_self (List.getElem?_eq_some_iff.mp hcall).1
  constructor
  · rintro ⟨other, found, hfound, hold⟩
    by_cases hindex : index = other
    · subst hindex
      cases hnew.symm.trans hfound
      exact Or.inl hold
    · rw [List.getElem?_set_ne hindex] at hfound
      exact Or.inr ⟨other, found, Ne.symm hindex, hfound, hold⟩
  · rintro (hold | ⟨other, found, hne, hfound, hold⟩)
    · exact ⟨index, new, hnew, hold⟩
    · exact ⟨other, found, (List.getElem?_set_ne (Ne.symm hne)).trans hfound, hold⟩

theorem exists_split {calls : List Notification} {old : Notification}
    (hcall : calls[index]? = some old) (P : Notification → Prop) :
    (∃ (other : Nat) (found : Notification), calls[other]? = some found ∧ P found) ↔
      P old ∨ ∃ (other : Nat) (found : Notification),
        other ≠ index ∧ calls[other]? = some found ∧ P found := by
  have hsplit := exists_set hcall old P
  obtain ⟨hlt, rfl⟩ := List.getElem?_eq_some_iff.mp hcall
  rwa [List.set_getElem_self] at hsplit

theorem carries_entered {first : Subscriber} (hcall : world.calls[index]? =
      some ⟨caller, told, first :: pending, false, report, persistence⟩) :
    Carries { world with
        calls := world.calls.set index ⟨caller, told, pending, true, after, persistence⟩
        log := .entered caller first told :: world.log } id subscriber value ↔
      Carries world id subscriber value := by
  unfold Carries
  dsimp only
  rw [exists_set hcall, exists_split hcall]
  simp only [List.mem_cons, SettingsEvent.entered.injEq]
  grind

theorem carries_left
    (hcall : world.calls[index]? = some ⟨caller, told, pending, true, report, persistence⟩) :
    Carries { world with
        calls := world.calls.set index ⟨caller, told, pending, false, after, persistence⟩ }
        id subscriber value ↔
      Carries world id subscriber value := by
  unfold Carries
  dsimp only
  rw [exists_set hcall, exists_split hcall]

theorem carries_finished {finished : Nat} {call : Notification}
    {result : Except SettingsError NotificationReport} (hcall : world.calls[index]? = some call)
    (hpending : call.pending = []) :
    Carries { world with
        calls := world.calls.eraseIdx index
        log := .returned finished result :: world.log } id subscriber value ↔
      Carries world id subscriber value := by
  unfold Carries
  simp only [List.mem_cons, reduceCtorEq, false_or]
  refine or_congr_right ⟨?_, ?_⟩
  · rintro ⟨other, found, hfound, hold⟩
    obtain ⟨before, hbefore⟩ := List.mem_iff_getElem?.mp
      (List.mem_of_mem_eraseIdx (List.mem_of_getElem? hfound))
    exact ⟨before, found, hbefore, hold⟩
  · rintro ⟨other, found, hfound, hid, hvalue, hmem⟩
    have hne : other ≠ index := by
      rintro rfl
      rw [hcall] at hfound
      cases hfound
      rw [hpending] at hmem
      cases hmem
    obtain ⟨after, hafter⟩ := List.mem_iff_getElem?.mp
      (List.mem_eraseIdx_iff_getElem?.mpr ⟨other, hne, hfound⟩)
    exact ⟨after, found, hafter, hid, hvalue, hmem⟩

end Carried

/-- The event comes after the call took the lock, if at all. -/
def Follows (log : List SettingsEvent) (id : Nat) (subscriber : Subscriber) : Prop :=
  ∀ later before, log = later ++ .removed subscriber :: before → .called id ∈ before

/-- A callback that was removed is entered only by a call that took the lock before. -/
def NotAfterRemoval (event : SettingsEvent) (earlier : List SettingsEvent) : Prop :=
  match event with
  | .entered id subscriber _ => Follows earlier id subscriber
  | _ => True

/-- Subscribers are told apart by their callbacks, calls by their numbers, and no call took a removed
subscriber. -/
structure Tracked (world : SettingsWorld) : Prop where
  fresh : ∀ key, ∀ subscriber ∈ world.store.callbacks key,
    subscriber.callback < world.store.nextCallback
  removedOld : ∀ subscriber, .removed subscriber ∈ world.log →
    subscriber.callback < world.store.nextCallback
  distinct : ∀ key other, ∀ subscriber ∈ world.store.callbacks key,
    ∀ second ∈ world.store.callbacks other, subscriber.callback = second.callback →
      key = other ∧ subscriber = second
  live : ∀ key, ∀ subscriber ∈ world.store.callbacks key, .removed subscriber ∉ world.log
  numbered : ∀ id subscriber value, Carries world id subscriber value → id < world.nextCall
  single : ∀ id subscriber value second other, Carries world id subscriber value →
    Carries world id second other → value = other
  called : ∀ (index : Nat) (call : Notification), world.calls[index]? = some call →
    .called call.id ∈ world.log
  pending : ∀ (index : Nat) (call : Notification), world.calls[index]? = some call →
    ∀ subscriber ∈ call.pending, Follows world.log call.id subscriber
  entered : EachEvent NotAfterRemoval world.log

/-- Every live subscriber is told the current value of its key by the last call that tells it
anything. -/
def ToldCurrent (world : SettingsWorld) : Prop :=
  ∀ key value subscriber, entry world.store.value key = some value → value.isNull = false →
    subscriber ∈ world.store.callbacks key →
    ∃ id, Carries world id subscriber value ∧
      ∀ later other, Carries world later subscriber other → later ≤ id

section Steps

variable {world : SettingsWorld}

theorem Follows.cons {log : List SettingsEvent} {id : Nat} {subscriber : Subscriber}
    (h : Follows log id subscriber) {event : SettingsEvent} (hne : event ≠ .removed subscriber) :
    Follows (event :: log) id subscriber := by
  intro later before hlog
  cases later with
  | nil => exact absurd (List.cons.inj hlog).1 hne
  | cons _ later => exact h later before (List.cons.inj hlog).2

theorem Follows.removed {log : List SettingsEvent} {id : Nat} {subscriber : Subscriber}
    (h : Follows log id subscriber) (hcalled : .called id ∈ log) (removed : List Subscriber) :
    Follows (removed.map .removed ++ log) id subscriber := by
  induction removed with
  | nil => exact h
  | cons _ _ ih =>
    intro later before hlog
    cases later with
    | nil =>
      obtain ⟨_, rfl⟩ := List.cons.inj hlog
      exact List.mem_append_right _ hcalled
    | cons _ later => exact ih later before (List.cons.inj hlog).2

variable {log : List SettingsEvent}

theorem follows_of_not_removed {id : Nat} {subscriber : Subscriber}
    (h : .removed subscriber ∉ log) : Follows log id subscriber := by
  intro later before hlog
  exact absurd (by rw [hlog]; exact List.mem_append_right _ List.mem_cons_self) h

variable {store : SettingsStore}

theorem Tracked.with_store (h : Tracked world) {loads : List JsonValue}
    {settled : String → Option (Option JsonValue)}
    (hcallbacks : store.callbacks = world.store.callbacks)
    (hnext : store.nextCallback = world.store.nextCallback) :
    Tracked { world with store, loads, settled } := by
  refine ⟨?_, ?_, ?_, ?_, h.numbered, h.single, h.called, h.pending, h.entered⟩
  · intro key subscriber hmem
    rw [hcallbacks] at hmem
    exact hnext ▸ h.fresh key subscriber hmem
  · intro subscriber hmem
    exact hnext ▸ h.removedOld subscriber hmem
  · intro key other subscriber hmem second hsecond
    rw [hcallbacks] at hmem hsecond
    exact h.distinct key other subscriber hmem second hsecond
  · intro key subscriber hmem
    rw [hcallbacks] at hmem
    exact h.live key subscriber hmem

theorem Tracked.notify (h : Tracked world) {value : JsonValue} {subscribers : List Subscriber}
    {write : Except SettingsError Unit}
    (hlive : ∀ subscriber ∈ subscribers, ∃ key, subscriber ∈ world.store.callbacks key) :
    Tracked (notify value subscribers write world) := by
  refine ⟨h.fresh, ?_, h.distinct, ?_, ?_, ?_, ?_, ?_, ⟨trivial, h.entered⟩⟩
  · intro subscriber hmem
    exact h.removedOld subscriber ((List.mem_cons.mp hmem).resolve_left (by simp))
  · intro key subscriber hmem hremoved
    exact h.live key subscriber hmem ((List.mem_cons.mp hremoved).resolve_left (by simp))
  · intro id subscriber told hcarries
    rcases carries_notify.mp hcarries with hold | ⟨rfl, _, _⟩
    · exact Nat.lt_succ_of_lt (h.numbered id subscriber told hold)
    · exact Nat.lt_succ_self _
  · intro id subscriber told second other hfirst hsecond
    rcases carries_notify.mp hfirst with hold | ⟨rfl, rfl, _⟩
    · rcases carries_notify.mp hsecond with hother | ⟨rfl, rfl, _⟩
      · exact h.single id subscriber told second other hold hother
      · exact absurd (h.numbered _ subscriber told hold) (Nat.lt_irrefl _)
    · rcases carries_notify.mp hsecond with hother | ⟨_, rfl, _⟩
      · exact absurd (h.numbered _ second other hother) (Nat.lt_irrefl _)
      · rfl
  · intro index call hcall
    rcases List.mem_append.mp (List.mem_of_getElem? hcall) with hold | hnew
    · obtain ⟨before, hbefore⟩ := List.mem_iff_getElem?.mp hold
      exact List.mem_cons_of_mem _ (h.called before call hbefore)
    · rw [List.mem_singleton.mp hnew]
      exact List.mem_cons_self
  · intro index call hcall subscriber hmem
    rcases List.mem_append.mp (List.mem_of_getElem? hcall) with hold | hnew
    · obtain ⟨before, hbefore⟩ := List.mem_iff_getElem?.mp hold
      exact (h.pending before call hbefore subscriber hmem).cons (by simp)
    · obtain rfl := List.mem_singleton.mp hnew
      obtain ⟨key, hkey⟩ := hlive subscriber hmem
      exact (follows_of_not_removed (h.live key subscriber hkey)).cons (by simp)

theorem Tracked.removed (h : Tracked world) {store : SettingsStore} {removed : List Subscriber}
    (hkept : ∀ key, ∀ subscriber ∈ store.callbacks key,
      subscriber ∈ world.store.callbacks key ∧ subscriber ∉ removed)
    (hremoved : ∀ subscriber ∈ removed, ∃ key, subscriber ∈ world.store.callbacks key)
    (hnext : store.nextCallback = world.store.nextCallback) :
    Tracked (recordRemoved removed { world with store }) := by
  have hmem {subscriber : Subscriber} :
      .removed subscriber ∈ removed.map SettingsEvent.removed ++ world.log ↔
        subscriber ∈ removed ∨ .removed subscriber ∈ world.log := by
    rw [List.mem_append, List.mem_map]
    simp
  refine ⟨?_, ?_, ?_, ?_, ?_, ?_, ?_, ?_, ?_⟩
  · intro key subscriber hlive
    exact hnext ▸ h.fresh key subscriber (hkept key subscriber hlive).1
  · intro subscriber hgone
    rcases hmem.mp hgone with hnow | hbefore
    · obtain ⟨key, hlive⟩ := hremoved subscriber hnow
      exact hnext ▸ h.fresh key subscriber hlive
    · exact hnext ▸ h.removedOld subscriber hbefore
  · intro key other subscriber hlive second hsecond
    exact h.distinct key other subscriber (hkept key subscriber hlive).1 second
      (hkept other second hsecond).1
  · intro key subscriber hlive hgone
    obtain ⟨hbefore, hnot⟩ := hkept key subscriber hlive
    rcases hmem.mp hgone with hnow | hold
    · exact hnot hnow
    · exact h.live key subscriber hbefore hold
  · intro id subscriber value hcarries
    exact h.numbered id subscriber value (carries_recordRemoved.mp hcarries)
  · intro id subscriber value second other hfirst hsecond
    exact h.single id subscriber value second other (carries_recordRemoved.mp hfirst)
      (carries_recordRemoved.mp hsecond)
  · intro index call hcall
    exact List.mem_append_right _ (h.called index call hcall)
  · intro index call hcall subscriber hpending
    exact (h.pending index call hcall subscriber hpending).removed (h.called index call hcall) removed
  · show EachEvent NotAfterRemoval (removed.map SettingsEvent.removed ++ world.log)
    clear hmem hremoved hkept
    induction removed with
    | nil => exact h.entered
    | cons _ _ ih => exact ⟨trivial, ih⟩

theorem mem_subscribe {key other : String} {subscriber : Subscriber}
    (h : subscriber ∈ (store.subscribe key).2.callbacks other) :
    subscriber ∈ store.callbacks other ∨ other = key ∧ subscriber = (store.subscribe key).1 := by
  have hcallbacks : (store.subscribe key).2.callbacks = Function.update store.callbacks key _ := rfl
  rw [hcallbacks] at h
  by_cases hkey : other = key
  · subst hkey
    rw [Function.update_self] at h
    rcases List.mem_append.mp h with hold | hnew
    · exact Or.inl (List.mem_of_mem_filter hold)
    · exact Or.inr ⟨rfl, List.mem_singleton.mp hnew⟩
  · rw [Function.update_of_ne hkey] at h
    exact Or.inl h

theorem subscriber_mem (key : String) (store : SettingsStore) :
    (store.subscribe key).1 ∈ (store.subscribe key).2.callbacks key := by
  have hcallbacks : (store.subscribe key).2.callbacks = Function.update store.callbacks key _ := rfl
  rw [hcallbacks, Function.update_self]
  exact List.mem_append_right _ (List.mem_singleton_self _)

theorem Tracked.subscribed (h : Tracked world) (key : String) :
    Tracked { world with store := (world.store.subscribe key).2 } := by
  have hnew : (world.store.subscribe key).1.callback = world.store.nextCallback := rfl
  have hnext : (world.store.subscribe key).2.nextCallback = world.store.nextCallback + 1 := rfl
  refine ⟨?_, ?_, ?_, ?_, h.numbered, h.single, h.called, h.pending, h.entered⟩
  · intro other subscriber hmem
    rcases mem_subscribe hmem with hold | ⟨_, rfl⟩
    · exact Nat.lt_succ_of_lt (h.fresh other subscriber hold)
    · exact Nat.lt_succ_self _
  · intro subscriber hmem
    exact Nat.lt_succ_of_lt (h.removedOld subscriber hmem)
  · intro other third subscriber hmem second hsecond hsame
    rcases mem_subscribe hmem with hold | ⟨rfl, rfl⟩
    · rcases mem_subscribe hsecond with hbefore | ⟨rfl, rfl⟩
      · exact h.distinct other third subscriber hold second hbefore hsame
      · have hlt := h.fresh other subscriber hold
        rw [hsame, hnew] at hlt
        exact absurd hlt (Nat.lt_irrefl _)
    · rcases mem_subscribe hsecond with hbefore | ⟨rfl, rfl⟩
      · have hlt := h.fresh third second hbefore
        rw [← hsame, hnew] at hlt
        exact absurd hlt (Nat.lt_irrefl _)
      · exact ⟨rfl, rfl⟩
  · intro other subscriber hmem hremoved
    rcases mem_subscribe hmem with hold | ⟨rfl, rfl⟩
    · exact h.live other subscriber hold hremoved
    · have hlt := h.removedOld _ hremoved
      rw [hnew] at hlt
      exact Nat.lt_irrefl _ hlt

theorem Tracked.moved (h : Tracked world) {calls : List Notification} (event : SettingsEvent)
    (hlog : log = world.log ∨ log = event :: world.log)
    (hevent : ∀ subscriber, event ≠ .removed subscriber)
    (hcarries : ∀ id subscriber value, Carries { world with calls, log } id subscriber value →
      Carries world id subscriber value)
    (hcalls : ∀ call ∈ calls, ∃ (index : Nat) (old : Notification),
      world.calls[index]? = some old ∧ old.id = call.id ∧ ∀ subscriber ∈ call.pending,
      subscriber ∈ old.pending) (hentered : EachEvent NotAfterRemoval log) :
    Tracked { world with calls, log } := by
  have hold {other : SettingsEvent} (hmem : other ∈ world.log) : other ∈ log := by
    rcases hlog with rfl | rfl
    · exact hmem
    · exact List.mem_cons_of_mem _ hmem
  have hremoved {subscriber : Subscriber} (hmem : .removed subscriber ∈ log) :
      .removed subscriber ∈ world.log := by
    rcases hlog with rfl | rfl
    · exact hmem
    · exact (List.mem_cons.mp hmem).resolve_left fun heq => hevent subscriber heq.symm
  refine ⟨h.fresh, fun subscriber hmem => h.removedOld subscriber (hremoved hmem), h.distinct,
    fun key subscriber hmem hgone => h.live key subscriber hmem (hremoved hgone), ?_, ?_, ?_, ?_,
    hentered⟩
  · intro id subscriber value hnow
    exact h.numbered id subscriber value (hcarries id subscriber value hnow)
  · intro id subscriber value second other hfirst hsecond
    exact h.single id subscriber value second other (hcarries _ _ _ hfirst) (hcarries _ _ _ hsecond)
  · intro index call hcall
    obtain ⟨before, old, hbefore, hid, _⟩ := hcalls call (List.mem_of_getElem? hcall)
    exact hold (hid ▸ h.called before old hbefore)
  · intro index call hcall subscriber hmem
    obtain ⟨before, old, hbefore, hid, hpending⟩ := hcalls call (List.mem_of_getElem? hcall)
    have hfollows := h.pending before old hbefore subscriber (hpending subscriber hmem)
    rw [hid] at hfollows
    rcases hlog with rfl | rfl
    · exact hfollows
    · exact hfollows.cons (hevent subscriber)

theorem calls_set {index : Nat} {old new : Notification} (hold : world.calls[index]? = some old)
    (hid : old.id = new.id) (hpending : ∀ subscriber ∈ new.pending, subscriber ∈ old.pending) :
    ∀ call ∈ world.calls.set index new, ∃ (before : Nat) (previous : Notification),
      world.calls[before]? = some previous ∧ previous.id = call.id ∧
        ∀ subscriber ∈ call.pending, subscriber ∈ previous.pending := by
  intro call hmem
  rcases List.mem_or_eq_of_mem_set hmem with hsame | rfl
  · obtain ⟨before, hbefore⟩ := List.mem_iff_getElem?.mp hsame
    exact ⟨before, call, hbefore, rfl, fun _ hmem => hmem⟩
  · exact ⟨index, old, hold, hid, hpending⟩

variable {action : SettingsAction} {next : SettingsWorld}

theorem Tracked.move (h : Tracked world) (hmove : Move world action next) : Tracked next := by
  cases hmove with
  | refused => exact h
  | read =>
    exact ⟨h.fresh, h.removedOld, h.distinct, h.live, h.numbered, h.single, h.called, h.pending,
      h.entered⟩
  | placed => exact h.with_store rfl rfl
  | saved =>
    exact h.with_store (SettingsStore.persist_callbacks ..) (SettingsStore.persist_nextCallback ..)
  | updated _ key _ write store _ _ _ hcallbacks hnext hsubscribers =>
    have hbase : Tracked (settle key write { world with store }) := h.with_store hcallbacks hnext
    refine hbase.notify fun subscriber hmem => ?_
    rcases hsubscribers with ⟨rfl, _⟩ | rfl
    · cases hmem
    · exact ⟨key, by show subscriber ∈ store.callbacks key; rw [hcallbacks]; exact hmem⟩
  | removed key _ store _ hcallbacks hnext =>
    have hbase : Tracked (recordRemoved (world.store.callbacks key) { world with store }) := by
      refine h.removed (fun other subscriber hmem => ?_) (fun subscriber hmem => ⟨key, hmem⟩) hnext
      rw [hcallbacks] at hmem
      by_cases hkey : other = key
      · subst hkey
        rw [Function.update_self] at hmem
        cases hmem
      · rw [Function.update_of_ne hkey] at hmem
        refine ⟨hmem, fun hgone => hkey ?_⟩
        exact (h.distinct other key subscriber hmem subscriber hgone rfl).1
    exact ⟨hbase.fresh, hbase.removedOld, hbase.distinct, hbase.live, hbase.numbered, hbase.single,
      hbase.called, hbase.pending, hbase.entered⟩
  | subscribed key =>
    refine (h.subscribed key).notify fun subscriber hmem => ⟨key, ?_⟩
    rw [List.mem_singleton.mp hmem]
    exact subscriber_mem key world.store
  | subscribedUnset key => exact h.subscribed key
  | unsubscribed key id =>
    refine h.removed (fun other subscriber hmem => ?_) (fun subscriber hmem =>
      ⟨key, List.mem_of_mem_filter hmem⟩) rfl
    have hmem' : subscriber ∈ Function.update world.store.callbacks key
        ((world.store.callbacks key).filter fun other => other.id ≠ id) other := hmem
    by_cases hkey : other = key
    · subst hkey
      rw [Function.update_self] at hmem'
      obtain ⟨hlive, hne⟩ := List.mem_filter.mp hmem'
      refine ⟨hlive, fun hgone => ?_⟩
      have hid := (List.mem_filter.mp hgone).2
      simp at hne hid
      exact hne hid
    · rw [Function.update_of_ne hkey] at hmem'
      refine ⟨hmem', fun hgone => hkey ?_⟩
      exact (h.distinct other key subscriber hmem' subscriber (List.mem_of_mem_filter hgone) rfl).1
  | entered index _ _ subscriber pending _ _ hcall =>
    refine h.moved _ (Or.inr rfl) (by simp) (fun _ _ _ => (carries_entered hcall).mp)
      (calls_set hcall rfl fun _ hmem => List.mem_cons_of_mem _ hmem) ⟨?_, h.entered⟩
    exact h.pending index _ hcall subscriber List.mem_cons_self
  | left _ _ _ _ _ _ _ _ hcall =>
    exact h.moved (.called 0) (Or.inl rfl) (by simp) (fun _ _ _ => (carries_left hcall).mp)
      (calls_set hcall rfl fun _ hmem => hmem) h.entered
  | finished _ _ _ _ _ hcall =>
    refine h.moved _ (Or.inr rfl) (by simp) (fun _ _ _ => (carries_finished hcall rfl).mp) ?_
      ⟨trivial, h.entered⟩
    intro call hmem
    obtain ⟨before, hbefore⟩ := List.mem_iff_getElem?.mp (List.mem_of_mem_eraseIdx hmem)
    exact ⟨before, call, hbefore, rfl, fun _ hmem => hmem⟩

theorem ToldCurrent.of_kept (h : ToldCurrent world)
    (hentries : ∀ key, ∀ subscriber ∈ next.store.callbacks key,
      subscriber ∈ world.store.callbacks key ∧
      ∀ value, entry next.store.value key = some value → value.isNull = false →
      entry world.store.value key = some value)
    (hcarries : ∀ id subscriber value, Carries next id subscriber value ↔
      Carries world id subscriber value) : ToldCurrent next := by
  intro key value subscriber hentry hvalue hmem
  obtain ⟨hlive, hkept⟩ := hentries key subscriber hmem
  obtain ⟨id, htold, hlast⟩ := h key value subscriber (hkept value hentry hvalue) hvalue hlive
  refine ⟨id, (hcarries _ _ _).mpr htold, fun later other hlater => ?_⟩
  exact hlast later other ((hcarries _ _ _).mp hlater)

theorem ToldCurrent.notified (h : ToldCurrent world) (htracked : Tracked world)
    {base : SettingsWorld} {told : JsonValue} {subscribers : List Subscriber}
    {write : Except SettingsError Unit} (hnext : base.nextCall = world.nextCall)
    (hcarries : ∀ id subscriber value, Carries base id subscriber value ↔
      Carries world id subscriber value)
    (hentries : ∀ key value, entry base.store.value key = some value → value.isNull = false →
      ∀ subscriber ∈ base.store.callbacks key, (value = told ∧ subscriber ∈ subscribers) ∨
        (subscriber ∉ subscribers ∧ subscriber ∈ world.store.callbacks key ∧
          entry world.store.value key = some value)) :
    ToldCurrent (notify told subscribers write base) := by
  intro key value subscriber hentry hvalue hmem
  rcases hentries key value hentry hvalue subscriber hmem with
    ⟨rfl, htold⟩ | ⟨hnot, hlive, hold⟩
  · refine ⟨base.nextCall, carries_notify.mpr (Or.inr ⟨rfl, rfl, htold⟩), fun later other hlater => ?_⟩
    rcases carries_notify.mp hlater with hbefore | ⟨rfl, _, _⟩
    · have hlt := htracked.numbered _ _ _ ((hcarries _ _ _).mp hbefore)
      rw [hnext]
      exact Nat.le_of_lt hlt
    · exact Nat.le_refl _
  · obtain ⟨id, htold, hlast⟩ := h key value subscriber hold hvalue hlive
    refine ⟨id, carries_notify.mpr (Or.inl ((hcarries _ _ _).mpr htold)), fun later other hlater => ?_⟩
    rcases carries_notify.mp hlater with hbefore | ⟨_, _, hnew⟩
    · exact hlast later other ((hcarries _ _ _).mp hbefore)
    · exact absurd hnew hnot

def isLoad : SettingsAction → Bool
  | .load _ | .putInPlace _ => true
  | _ => false

theorem ToldCurrent.move (h : ToldCurrent world) (htracked : Tracked world)
    (hmove : Move world action next) (hload : isLoad action = false) : ToldCurrent next := by
  cases hmove with
  | refused => exact h
  | read | placed => cases hload
  | saved =>
    refine h.of_kept (fun key subscriber hmem => ?_) fun _ _ _ => Iff.rfl
    rw [SettingsStore.persist_callbacks] at hmem
    refine ⟨hmem, fun value hentry _ => ?_⟩
    rw [SettingsStore.persist_value] at hentry
    exact hentry
  | updated _ key value _ store _ _ hupdated hcallbacks _ hsubscribers =>
    refine h.notified htracked rfl (fun _ _ _ => Iff.rfl) fun other shown hentry hshown subscriber
      hmem => ?_
    have hentry' : entry store.value other = some shown := hentry
    have hmem' : subscriber ∈ store.callbacks other := hmem
    rw [hupdated.entries] at hentry'
    rw [hcallbacks] at hmem'
    by_cases hkey : other = key
    · subst hkey
      rw [if_pos rfl] at hentry'
      cases hentry'
      rcases hsubscribers with ⟨_, hnull⟩ | rfl
      · rw [hnull] at hshown
        cases hshown
      · exact Or.inl ⟨rfl, hmem'⟩
    · rw [if_neg hkey] at hentry'
      refine Or.inr ⟨fun htold => hkey ?_, hmem', hentry'⟩
      rcases hsubscribers with ⟨rfl, _⟩ | rfl
      · cases htold
      · exact (htracked.distinct other key subscriber hmem' subscriber htold rfl).1
  | removed key _ store hupdated hcallbacks =>
    refine h.of_kept (fun other subscriber hmem => ?_) fun _ _ _ => carries_recordRemoved
    have hmem' : subscriber ∈ store.callbacks other := hmem
    rw [hcallbacks] at hmem'
    by_cases hkey : other = key
    · subst hkey
      rw [Function.update_self] at hmem'
      cases hmem'
    · rw [Function.update_of_ne hkey] at hmem'
      refine ⟨hmem', fun value hentry _ => ?_⟩
      have hentry' : entry store.value other = some value := hentry
      rw [hupdated.entries, if_neg hkey] at hentry'
      exact hentry'
  | subscribed _ _ hcurrent =>
    refine h.notified htracked rfl (fun _ _ _ => Iff.rfl) fun other shown hentry hshown subscriber
      hmem => ?_
    rcases mem_subscribe hmem with hold | ⟨rfl, rfl⟩
    · refine Or.inr ⟨fun htold => ?_, hold, hentry⟩
      have hlt := htracked.fresh other subscriber hold
      rw [List.mem_singleton.mp htold] at hlt
      exact Nat.lt_irrefl _ hlt
    · refine Or.inl ⟨?_, List.mem_singleton_self _⟩
      have hvalue := (Option.filter_eq_some_iff.mp hcurrent).1
      exact Option.some.inj (hentry.symm.trans hvalue)
  | subscribedUnset _ hcurrent =>
    intro other shown subscriber hentry hshown hmem
    rcases mem_subscribe hmem with hold | ⟨rfl, rfl⟩
    · exact h other shown subscriber hentry hshown hold
    · have hnone := Option.filter_eq_none_iff.mp hcurrent shown hentry
      rw [hshown] at hnone
      exact absurd rfl hnone
  | unsubscribed key id =>
    refine h.of_kept (fun other subscriber hmem => ?_) fun _ _ _ => carries_recordRemoved
    have hmem' : subscriber ∈ Function.update world.store.callbacks key
        ((world.store.callbacks key).filter fun other => other.id ≠ id) other := hmem
    by_cases hkey : other = key
    · subst hkey
      rw [Function.update_self] at hmem'
      exact ⟨List.mem_of_mem_filter hmem', fun _ hentry _ => hentry⟩
    · rw [Function.update_of_ne hkey] at hmem'
      exact ⟨hmem', fun _ hentry _ => hentry⟩
  | entered _ _ _ _ _ _ _ hcall =>
    exact h.of_kept (fun _ _ hmem => ⟨hmem, fun _ hentry _ => hentry⟩)
      fun _ _ _ => carries_entered hcall
  | left _ _ _ _ _ _ _ _ hcall =>
    exact h.of_kept (fun _ _ hmem => ⟨hmem, fun _ hentry _ => hentry⟩)
      fun _ _ _ => carries_left hcall
  | finished _ _ _ _ _ hcall =>
    exact h.of_kept (fun _ _ hmem => ⟨hmem, fun _ hentry _ => hentry⟩)
      fun _ _ _ => carries_finished hcall rfl

end Steps

def two : JsonValue := .number (.posInt 2)

end SettingsWorld

end Nexus.Settings
