import Nexus.SettingsStore

namespace Nexus.Settings

theorem entry_object (members : JsonMembers) (key : String) :
    entry (.object members) key = members.get key := rfl

theorem objectRef_cases (document : JsonValue) :
    objectRefOrPromoteNull document = (.error .rootIsNotObject, document) ∨
      ∃ members, objectRefOrPromoteNull document = (.ok members, .object members) ∧
        ∀ key, entry document key = members.get key := by
  cases document with
  | null => exact Or.inr ⟨[], rfl, fun _ => rfl⟩
  | object members => exact Or.inr ⟨members, rfl, fun _ => rfl⟩
  | bool | number | string | array => exact Or.inl rfl

namespace SettingsStore

structure Updated (key : String) (effect : Option JsonValue) (write : Except SettingsError Unit)
    (store next : SettingsStore) : Prop where
  entries : ∀ other, entry next.value other = if other = key then effect else entry store.value other
  saved : ∀ done, write = .ok done → next.file = .written next.value
  unsaved : ∀ error, write = .error error → next.file = store.file

section Updates

variable {key : String} {write : Except SettingsError Unit} {store : SettingsStore}

theorem persist_value (write : Except SettingsError Unit) (store : SettingsStore) :
    (store.persist write).value = store.value := by
  cases write <;> rfl

theorem persist_callbacks (write : Except SettingsError Unit) (store : SettingsStore) :
    (store.persist write).callbacks = store.callbacks := by
  cases write <;> rfl

theorem persist_nextCallback (write : Except SettingsError Unit) (store : SettingsStore) :
    (store.persist write).nextCallback = store.nextCallback := by
  cases write <;> rfl

theorem updated_persist {document : JsonValue} {effect : Option JsonValue}
    (h : ∀ other, entry document other = if other = key then effect else entry store.value other) :
    Updated key effect write store (persist write { store with value := document }) where
  entries other := by
    rw [persist_value]
    exact h other
  saved done hdone := by
    rw [hdone]
    rfl
  unsaved error herror := by
    rw [herror]
    rfl

theorem set_cases (key : String) (encoded : Option JsonValue) (write : Except SettingsError Unit)
    (store : SettingsStore) :
    (∃ error, store.set key encoded write = (.error error, store)) ∨
      ∃ value next, store.set key encoded write = (.ok value, next) ∧
        Updated key (some value) write store next ∧ next.callbacks = store.callbacks ∧
        next.nextCallback = store.nextCallback := by
  unfold SettingsStore.set
  cases encoded with
  | none => exact Or.inl ⟨_, rfl⟩
  | some value =>
    rcases objectRef_cases store.value with href | ⟨_, href, hentries⟩
    · dsimp only
      rw [href]
      exact Or.inl ⟨_, rfl⟩
    · dsimp only
      rw [href]
      refine Or.inr ⟨value, _, rfl, updated_persist fun other => ?_, persist_callbacks ..,
        persist_nextCallback ..⟩
      rw [entry_object, JsonMembers.get_insert, hentries]

theorem getOrInsert_cases (key : String) (encoded : Option JsonValue) (accepts : JsonValue → Bool)
    (write : Except SettingsError Unit) (store : SettingsStore) :
    (∃ error, store.getOrInsert key encoded accepts write = (.error error, store)) ∨
      (store.getOrInsert key encoded accepts write = (.ok none, store)) ∨
      ∃ value next, store.getOrInsert key encoded accepts write = (.ok (some value), next) ∧
        Updated key (some value) write store next ∧ next.callbacks = store.callbacks ∧
        next.nextCallback = store.nextCallback := by
  unfold SettingsStore.getOrInsert
  cases encoded with
  | none => exact Or.inl ⟨_, rfl⟩
  | some value =>
    rcases objectRef_cases store.value with href | ⟨members, href, hentries⟩
    · dsimp only
      rw [href]
      exact Or.inl ⟨_, rfl⟩
    · dsimp only
      rw [href]
      rcases hexisting : (members.get key).filter fun existing => !existing.isNull with _ | existing
      · simp only [hexisting]
        refine Or.inr (Or.inr ⟨value, _, rfl, updated_persist fun other => ?_,
          persist_callbacks .., persist_nextCallback ..⟩)
        rw [entry_object, JsonMembers.get_insert, hentries]
      · -- a document with a member is an object already
        have hobject : JsonValue.object members = store.value := by
          cases hvalue : store.value with
          | object =>
            rw [hvalue] at href
            cases href
            rfl
          | null =>
            rw [hvalue] at href
            cases href
            cases hexisting
          | bool | number | string | array =>
            rw [hvalue] at href
            cases href
        simp only [hexisting, hobject]
        cases accepts existing with
        | false => exact Or.inl ⟨_, rfl⟩
        | true => exact Or.inr (Or.inl rfl)

theorem remove_cases (key : String) (write : Except SettingsError Unit) (store : SettingsStore) :
    store.remove key write = (.error .rootIsNotObject, store) ∨
      ∃ removed next, store.remove key write = (.ok removed, next) ∧
        Updated key none write store next ∧
        next.callbacks = Function.update store.callbacks key [] ∧
        next.nextCallback = store.nextCallback := by
  unfold SettingsStore.remove
  rcases objectRef_cases store.value with href | ⟨members, href, hentries⟩
  · rw [href]
    exact Or.inl rfl
  · rw [href]
    have hupdated : Updated key none write store
        (persist write { store with value := .object (members.remove key) }) :=
      updated_persist fun other => by rw [entry_object, JsonMembers.get_remove, hentries]
    refine Or.inr ⟨_, _, rfl, ⟨hupdated.entries, hupdated.saved, hupdated.unsaved⟩, ?_,
      persist_nextCallback ..⟩
    dsimp only
    rw [persist_callbacks]

end Updates

end SettingsStore

namespace SettingsWorld

def updatedKey : SettingsAction → Option String
  | .set key _ _ | .getOrInsert key _ _ _ | .remove key _ => some key
  | _ => none

inductive Move (world : SettingsWorld) : SettingsAction → SettingsWorld → Prop where
  | refused (action : SettingsAction) : Move world action world
  | read (fault : Option SettingsError) (document : JsonValue) :
      Move world (.load fault) { world with loads := world.loads ++ [document] }
  | placed (index : Nat) (document : JsonValue) (h : world.loads[index]? = some document) :
      Move world (.putInPlace index) { world with
        store := { world.store with value := document }
        loads := world.loads.eraseIdx index }
  | saved (write : Except SettingsError Unit) :
      Move world (.save write) { world with store := world.store.persist write }
  | updated (action : SettingsAction) (key : String) (value : JsonValue)
      (write : Except SettingsError Unit) (store : SettingsStore) (subscribers : List Subscriber)
      (haction : updatedKey action = some key)
      (h : SettingsStore.Updated key (some value) write world.store store)
      (hcallbacks : store.callbacks = world.store.callbacks)
      (hnext : store.nextCallback = world.store.nextCallback)
      (hsubscribers : subscribers = [] ∧ value.isNull = true ∨
        subscribers = world.store.callbacks key) :
      Move world action (notify value subscribers write (settle key write { world with store }))
  | removed (key : String) (write : Except SettingsError Unit) (store : SettingsStore)
      (h : SettingsStore.Updated key none write world.store store)
      (hcallbacks : store.callbacks = Function.update world.store.callbacks key [])
      (hnext : store.nextCallback = world.store.nextCallback) :
      Move world (.remove key write)
        (recordRemoved (world.store.callbacks key) (settle key write { world with store }))
  | subscribed (key : String) (value : JsonValue)
      (h : (world.store.subscribe key).2.current key = some value) :
      Move world (.subscribe key) (notify value [(world.store.subscribe key).1] (.ok ())
        { world with store := (world.store.subscribe key).2 })
  | subscribedUnset (key : String) (h : (world.store.subscribe key).2.current key = none) :
      Move world (.subscribe key) { world with store := (world.store.subscribe key).2 }
  | unsubscribed (key : String) (id : Nat) :
      Move world (.unsubscribe key id) (recordRemoved
        ((world.store.callbacks key).filter fun other => other.id = id)
        { world with store := world.store.unsubscribe key id })
  | entered (index id : Nat) (value : JsonValue) (subscriber : Subscriber)
      (pending : List Subscriber) (report : NotificationReport)
      (persistence : Except SettingsError Unit)
      (h : world.calls[index]? = some ⟨id, value, subscriber :: pending, false, report, persistence⟩) :
      Move world (.enter index) { world with
        calls := world.calls.set index
          ⟨id, value, pending, true, { report with attempted := report.attempted + 1 }, persistence⟩
        log := .entered id subscriber value :: world.log }
  | left (index id : Nat) (panicked : Bool) (value : JsonValue) (pending : List Subscriber)
      (report after : NotificationReport) (persistence : Except SettingsError Unit)
      (h : world.calls[index]? = some ⟨id, value, pending, true, report, persistence⟩) :
      Move world (.leave index panicked) { world with
        calls := world.calls.set index ⟨id, value, pending, false, after, persistence⟩ }
  | finished (index id : Nat) (value : JsonValue) (report : NotificationReport)
      (persistence : Except SettingsError Unit)
      (h : world.calls[index]? = some ⟨id, value, [], false, report, persistence⟩) :
      Move world (.finish index) { world with
        calls := world.calls.eraseIdx index
        log := .returned id (persistence.map fun _ => report) :: world.log }

theorem step_move {text : DocumentText} {world next : SettingsWorld} {action : SettingsAction}
    (hstep : world.step text action = some next) : Move world action next := by
  unfold step at hstep
  cases action with
  | load fault =>
    dsimp only at hstep
    split at hstep
    next document _ =>
      cases hstep
      exact .read fault document
    next =>
      cases hstep
      exact .refused _
  | putInPlace index =>
    obtain ⟨document, hdocument, rfl⟩ := Option.map_eq_some_iff.mp hstep
    exact .placed index document hdocument
  | save write =>
    cases hstep
    exact .saved write
  | set key encoded write =>
    rcases SettingsStore.set_cases key encoded write world.store with
      ⟨error, hset⟩ | ⟨value, store, hset, hupdated, hcallbacks, hnext⟩
    · simp only [hset] at hstep
      cases hstep
      exact .refused _
    · simp only [hset] at hstep
      cases hstep
      refine .updated _ key value write store _ rfl hupdated hcallbacks hnext ?_
      cases hnull : value.isNull with
      | true => exact Or.inl ⟨rfl, rfl⟩
      | false => exact Or.inr (congrFun hcallbacks key)
  | getOrInsert key encoded accepts write =>
    rcases SettingsStore.getOrInsert_cases key encoded accepts write world.store with
      ⟨error, hget⟩ | hget | ⟨value, store, hget, hupdated, hcallbacks, hnext⟩
    · simp only [hget] at hstep
      cases hstep
      exact .refused _
    · simp only [hget] at hstep
      cases hstep
      exact .refused _
    · simp only [hget] at hstep
      cases hstep
      exact .updated _ key value write store _ rfl hupdated hcallbacks hnext
        (Or.inr (congrFun hcallbacks key))
  | remove key write =>
    rcases SettingsStore.remove_cases key write world.store with
      hremove | ⟨removed, store, hremove, hupdated, hcallbacks, hnext⟩
    · simp only [hremove] at hstep
      cases hstep
      exact .refused _
    · simp only [hremove] at hstep
      cases hstep
      exact .removed key write store hupdated hcallbacks hnext
  | subscribe key =>
    dsimp only at hstep
    split at hstep
    next value hcurrent =>
      cases hstep
      exact .subscribed key value hcurrent
    next hcurrent =>
      cases hstep
      exact .subscribedUnset key hcurrent
  | unsubscribe key id =>
    cases hstep
    exact .unsubscribed key id
  | enter index =>
    dsimp only at hstep
    split at hstep
    next id value subscriber pending report persistence hcall =>
      cases hstep
      exact .entered index id value subscriber pending report persistence hcall
    next => cases hstep
  | leave index panicked =>
    dsimp only at hstep
    split at hstep
    next id value pending report persistence hcall =>
      cases hstep
      exact .left index id panicked value pending report _ persistence hcall
    next => cases hstep
  | finish index =>
    dsimp only at hstep
    split at hstep
    next id value report persistence hcall =>
      cases hstep
      exact .finished index id value report persistence hcall
    next => cases hstep

end SettingsWorld

end Nexus.Settings
