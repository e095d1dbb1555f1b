import Nexus.GameBindShape

namespace Nexus

section SlotAttributes

variable {device button modifier : String} {deviceText : String}
  {buttonText modifierText : Option String}

theorem slotKeys_sublist : List.Sublist
    (([(device, deviceText)] ++ (buttonText.map fun text => (button, text)).toList ++
      (modifierText.map fun text => (modifier, text)).toList).map Prod.fst)
    [device, button, modifier] := by
  have hoption : ∀ (key : String) (text : Option String),
      List.Sublist ((text.map fun text => (key, text)).toList.map Prod.fst) [key] := by
    intro key text
    cases text with
    | none => exact List.nil_sublist [key]
    | some => exact List.Sublist.refl [key]
  rw [List.map_append, List.map_append]
  exact (List.Sublist.append (List.Sublist.refl [device]) (hoption button buttonText)).append
    (hoption modifier modifierText)

theorem find_option (key other : String) (text : Option String) :
    SortedMap.find other (text.map fun text => (key, text)).toList =
      if key = other then text else none := by
  cases text with
  | none | some => simp [SortedMap.find]

theorem find_slotAttributes (hboth : button ≠ modifier) (key : String) :
    SortedMap.find key ([(device, deviceText)] ++
      (buttonText.map fun text => (button, text)).toList ++
        (modifierText.map fun text => (modifier, text)).toList) =
      if device = key then some deviceText
      else if button = key then buttonText
      else if modifier = key then modifierText
      else none := by
  rw [SortedMap.find_append, SortedMap.find_append, find_option, find_option]
  by_cases hd : device = key
  · subst hd
    simp [SortedMap.find]
  · by_cases hb : button = key
    · subst hb
      simp [SortedMap.find, hd, Ne.symm hboth]
    · simp [SortedMap.find, hd, hb]

end SlotAttributes

namespace GameBindRegistry

def savedName (registry : GameBindRegistry) (id : GameBindId) : String :=
  (id.name <|> registry.loadedNames.get? id).getD ""

def savedExtra (registry : GameBindRegistry) (id : GameBindId) : XmlAttributes :=
  (registry.actionExtra.get? id).getD .empty

def slotAttributes (binding : InputBind) (suffix : String) : List (String × String) :=
  [("device" ++ suffix, binding.deviceText)] ++
    (binding.buttonText.map fun text => ("button" ++ suffix, text)).toList ++
    (binding.modifierText.map fun text => ("mod" ++ suffix, text)).toList

def fieldAttributes (registry : GameBindRegistry) (id : GameBindId) (binding : MultiInputBind) :
    List (String × String) :=
  [("name", registry.savedName id), ("id", id.val.repr)] ++ slotAttributes binding.primary "" ++
    slotAttributes binding.secondary "2"

theorem fieldKeys_sublist (registry : GameBindRegistry) (id : GameBindId)
    (binding : MultiInputBind) :
    List.Sublist ((registry.fieldAttributes id binding).map Prod.fst) actionAttributes := by
  unfold fieldAttributes
  rw [List.map_append, List.map_append]
  have hsplit : actionAttributes = ["name", "id"] ++ ["device", "button", "mod"] ++
      ["device2", "button2", "mod2"] := rfl
  rw [hsplit]
  exact ((List.Sublist.refl ["name", "id"]).append slotKeys_sublist).append slotKeys_sublist

variable {registry : GameBindRegistry}

theorem savedExtra_keys (h : registry.Shape) (id : GameBindId) :
    ∀ key ∈ actionAttributes, (registry.savedExtra id).get? key = none := by
  intro key hkey
  unfold savedExtra
  rcases hget : registry.actionExtra.get? id with _ | extra
  · rfl
  · exact h.extra_keys id extra hget key hkey

theorem xmlActionAttributes_eq (h : registry.Shape) (id : GameBindId) (binding : MultiInputBind) :
    registry.xmlActionAttributes id binding =
      registry.fieldAttributes id binding ++ (registry.savedExtra id).toList := by
  have hfields : appendXmlSlot (appendXmlSlot
        [("name", (id.name <|> registry.loadedNames.get? id).getD ""), ("id", id.val.repr)]
        binding.primary "" "" "") binding.secondary "2" "2" "2" =
      registry.fieldAttributes id binding := by
    rw [appendXmlSlot_eq, appendXmlSlot_eq]
    rfl
  unfold xmlActionAttributes
  simp only [hfields]
  have hkeys := savedExtra_keys h id
  unfold savedExtra at hkeys ⊢
  split
  next hget => rw [hget]; exact (List.append_nil _).symm
  next extra hget =>
    rw [hget] at hkeys ⊢
    rw [Option.getD_some] at hkeys ⊢
    congr 1
    refine List.filter_eq_self.mpr fun item hitem => ?_
    rw [decide_eq_true_iff]
    intro hmem
    have hnone := hkeys item.1 ((fieldKeys_sublist registry id binding).subset hmem)
    rw [SortedMap.get?_of_mem (show (item.1, item.2) ∈ extra.toList from hitem)] at hnone
    cases hnone

theorem savedKeys_nodup (h : registry.Shape) (id : GameBindId) (binding : MultiInputBind) :
    ((registry.fieldAttributes id binding ++
      (registry.savedExtra id).toList).map Prod.fst).Nodup := by
  rw [List.map_append, List.nodup_append]
  refine ⟨(fieldKeys_sublist registry id binding).nodup (by decide),
    (registry.savedExtra id).sorted.imp fun hlt => ne_of_lt hlt, ?_⟩
  rintro key hkey other hother rfl
  obtain ⟨item, hitem, rfl⟩ := List.mem_map.mp hother
  have hnone := savedExtra_keys h id item.1 ((fieldKeys_sublist registry id binding).subset hkey)
  rw [SortedMap.get?_of_mem (show (item.1, item.2) ∈ _ from hitem)] at hnone
  cases hnone

theorem get?_savedAttributes (h : registry.Shape) (id : GameBindId) (binding : MultiInputBind)
    (key : String) :
    (readAttributes (registry.xmlActionAttributes id binding)).get? key =
      (SortedMap.find key (registry.fieldAttributes id binding)).or
        ((registry.savedExtra id).get? key) := by
  rw [xmlActionAttributes_eq h, get?_readAttributes (savedKeys_nodup h id binding),
    SortedMap.find_append]
  rfl

theorem find_fieldAttributes (registry : GameBindRegistry) (id : GameBindId)
    (binding : MultiInputBind) (key : String) :
    SortedMap.find key (registry.fieldAttributes id binding) =
      if "name" = key then some (registry.savedName id)
      else if "id" = key then some id.val.repr
      else if "device" = key then some binding.primary.deviceText
      else if "button" = key then binding.primary.buttonText
      else if "mod" = key then binding.primary.modifierText
      else if "device2" = key then some binding.secondary.deviceText
      else if "button2" = key then binding.secondary.buttonText
      else if "mod2" = key then binding.secondary.modifierText
      else none := by
  unfold fieldAttributes slotAttributes
  rw [SortedMap.find_append, SortedMap.find_append,
    find_slotAttributes (by decide), find_slotAttributes (by decide)]
  have hdevice : "device" ++ "" = "device" := by decide
  have hbutton : "button" ++ "" = "button" := by decide
  have hmodifier : "mod" ++ "" = "mod" := by decide
  have hdevice2 : "device" ++ "2" = "device2" := by decide
  have hbutton2 : "button" ++ "2" = "button2" := by decide
  have hmodifier2 : "mod" ++ "2" = "mod2" := by decide
  rw [hdevice, hbutton, hmodifier, hdevice2, hbutton2, hmodifier2]
  by_cases hname : "name" = key
  · subst hname
    simp [SortedMap.find]
  by_cases hid : "id" = key
  · subst hid
    simp [SortedMap.find]
  -- the keys of the two slots are all different
  by_cases hfirst : key ∈ ["device", "button", "mod"]
  · have hother : ¬"device2" = key ∧ ¬"button2" = key ∧ ¬"mod2" = key := by
      have hkeys : ∀ key ∈ ["device", "button", "mod"],
          ¬"device2" = key ∧ ¬"button2" = key ∧ ¬"mod2" = key := by decide
      exact hkeys key hfirst
    simp [SortedMap.find, hname, hid, hother]
  · obtain ⟨hdevice, hbutton, hmodifier⟩ : ¬"device" = key ∧ ¬"button" = key ∧ ¬"mod" = key := by
      simpa [eq_comm] using hfirst
    simp [SortedMap.find, hname, hid, hdevice, hbutton, hmodifier]

def reloadedBinding (base : Option MultiInputBind) (binding : MultiInputBind) : MultiInputBind :=
  ⟨(reloadedSlot binding.primary).getD (base.getD .default).primary,
    (reloadedSlot binding.secondary).getD (base.getD .default).secondary⟩

def reloadAction (registry candidate : GameBindRegistry) (item : GameBindId × MultiInputBind) :
    GameBindRegistry :=
  { candidate with
    bindings := candidate.bindings.put item.1
      (reloadedBinding (candidate.bindings.get? item.1) item.2)
    loadedNames := candidate.loadedNames.put item.1 (registry.savedName item.1)
    actionExtra :=
      match registry.actionExtra.get? item.1 with
      | none => candidate.actionExtra
      | some extra => candidate.actionExtra.put item.1 extra }

theorem extraAttributes_saved (h : registry.Shape) (id : GameBindId) (binding : MultiInputBind) :
    extraAttributes (readAttributes (registry.xmlActionAttributes id binding)) =
      registry.savedExtra id := by
  refine SortedMap.ext_get? fun key => ?_
  rw [get?_extraAttributes, get?_savedAttributes h]
  by_cases hkey : key ∈ actionAttributes
  · rw [if_pos hkey, savedExtra_keys h id key hkey]
  · have hfields : SortedMap.find key (registry.fieldAttributes id binding) = none :=
      SortedMap.find_eq_none fun hmem =>
        hkey ((fieldKeys_sublist registry id binding).subset hmem)
    rw [if_neg hkey, hfields, Option.none_or]

theorem parseXmlSlot_saved (h : registry.Shape) (id : GameBindId) (binding : MultiInputBind) :
    parseXmlSlot (readAttributes (registry.xmlActionAttributes id binding)) "" "" "" =
        reloadedSlot binding.primary ∧
      parseXmlSlot (readAttributes (registry.xmlActionAttributes id binding)) "2" "2" "2" =
        reloadedSlot binding.secondary := by
  have hkeys := savedExtra_keys h id
  have hget : ∀ key ∈ actionAttributes,
      (readAttributes (registry.xmlActionAttributes id binding)).get? key =
        SortedMap.find key (registry.fieldAttributes id binding) := by
    intro key hkey
    rw [get?_savedAttributes h, hkeys key hkey, Option.or_none]
  constructor
  · rw [parseXmlSlot_eq, hget _ (by decide), hget _ (by decide), hget _ (by decide),
      find_fieldAttributes, find_fieldAttributes, find_fieldAttributes]
    rfl
  · rw [parseXmlSlot_eq, hget _ (by decide), hget _ (by decide), hget _ (by decide),
      find_fieldAttributes, find_fieldAttributes, find_fieldAttributes]
    rfl

theorem applyXmlAction_saved (h : registry.Shape) (candidate : GameBindRegistry)
    {item : GameBindId × MultiInputBind} (hid : item.1 ≠ GameBindId.legacyMoveSwimUp) :
    candidate.applyXmlAction (readAttributes (registry.xmlActionAttributes item.1 item.2)) =
      (true, reloadAction registry candidate item) := by
  obtain ⟨id, binding⟩ := item
  have hread : ((readAttributes (registry.xmlActionAttributes id binding)).get? "id").bind
      (parseUnsigned (2 ^ 32)) = some id := by
    rw [get?_savedAttributes h, savedExtra_keys h id "id" (by decide), Option.or_none,
      find_fieldAttributes]
    exact parseUnsigned_repr id
  have hname : (readAttributes (registry.xmlActionAttributes id binding)).get? "name" =
      some (registry.savedName id) := by
    rw [get?_savedAttributes h, savedExtra_keys h id "name" (by decide), Option.or_none,
      find_fieldAttributes]
    rfl
  obtain ⟨hprimary, hsecondary⟩ := parseXmlSlot_saved h id binding
  have hextra := extraAttributes_saved h id binding
  unfold extraAttributes at hextra
  unfold applyXmlAction
  rw [hread]
  simp only [if_neg hid, hprimary, hsecondary, hname, hextra]
  unfold savedExtra reloadAction reloadedBinding
  rcases hget : registry.actionExtra.get? id with _ | extra
  · rfl
  · have hnonempty : extra.toList.isEmpty = false := h.extra_nonempty id extra hget
    simp [hnonempty]

def reloadActions (registry : GameBindRegistry) (items : List (GameBindId × MultiInputBind))
    (candidate : GameBindRegistry) : GameBindRegistry :=
  items.foldl (reloadAction registry) candidate

theorem reloadActions_bindings (registry : GameBindRegistry)
    (items : List (GameBindId × MultiInputBind)) (hnodup : (items.map Prod.fst).Nodup)
    (candidate : GameBindRegistry) (id : GameBindId) :
    (reloadActions registry items candidate).bindings.get? id =
      match SortedMap.find id items with
      | some binding => some (reloadedBinding (candidate.bindings.get? id) binding)
      | none => candidate.bindings.get? id := by
  induction items generalizing candidate with
  | nil => rfl
  | cons item _ ih =>
    obtain ⟨key, binding⟩ := item
    obtain ⟨hnotin, hrest⟩ := List.nodup_cons.mp (List.map_cons .. ▸ hnodup)
    have hstep := ih hrest (reloadAction registry candidate (key, binding))
    have hput : (reloadAction registry candidate (key, binding)).bindings.get? id =
        if id = key then some (reloadedBinding (candidate.bindings.get? key) binding)
        else candidate.bindings.get? id := SortedMap.get?_put ..
    unfold reloadActions at hstep ⊢
    rw [List.foldl_cons, hstep, hput]
    by_cases hkey : key = id
    · subst hkey
      rw [SortedMap.find_eq_none hnotin, if_pos rfl]
      simp [SortedMap.find]
    · simp [SortedMap.find, hkey, Ne.symm hkey]

theorem reloadActions_extra (registry : GameBindRegistry)
    (items : List (GameBindId × MultiInputBind)) (candidate : GameBindRegistry)
    (id : GameBindId) :
    (reloadActions registry items candidate).actionExtra.get? id =
      if id ∈ items.map Prod.fst then
        (registry.actionExtra.get? id).or (candidate.actionExtra.get? id)
      else candidate.actionExtra.get? id := by
  induction items generalizing candidate with
  | nil => rfl
  | cons item rest ih =>
    have hstep := ih (reloadAction registry candidate item)
    have hput : (reloadAction registry candidate item).actionExtra.get? id =
        if id = item.1 then
          (registry.actionExtra.get? id).or (candidate.actionExtra.get? id)
        else candidate.actionExtra.get? id := by
      unfold reloadAction
      split
      next hnone =>
        split
        next heq => rw [heq, hnone, Option.none_or]
        next => rfl
      next hsome =>
        rw [SortedMap.get?_put]
        split
        next heq => rw [heq, hsome, Option.some_or]
        next => rfl
    unfold reloadActions at hstep ⊢
    rw [List.foldl_cons, hstep, hput]
    by_cases hkey : id = item.1
    · by_cases hrest : id ∈ rest.map Prod.fst
      · rw [if_pos hrest, if_pos hkey, if_pos (List.map_cons ▸ List.mem_cons_of_mem _ hrest)]
        rcases registry.actionExtra.get? id with _ | _
        · rw [Option.none_or, Option.none_or]
        · rw [Option.some_or, Option.some_or]
      · rw [if_neg hrest, if_pos hkey, if_pos (by simp [hkey])]
    · have hmem : id ∈ (item :: rest).map Prod.fst ↔ id ∈ rest.map Prod.fst := by simp [hkey]
      simp only [hkey, hmem, if_false]

theorem reloadActions_rootExtra (registry : GameBindRegistry)
    (items : List (GameBindId × MultiInputBind)) (candidate : GameBindRegistry) :
    (reloadActions registry items candidate).rootExtra = candidate.rootExtra := by
  induction items generalizing candidate with
  | nil => rfl
  | cons item _ ih => exact ih (reloadAction registry candidate item)

end GameBindRegistry

namespace XmlLoad

open GameBindRegistry

theorem foldlM_filter_text (events : List XmlEvent) (state : XmlLoad) :
    events.foldlM XmlLoad.event state =
      (events.filter fun event => !event.isText).foldlM XmlLoad.event state := by
  induction events generalizing state with
  | nil => rfl
  | cons event rest ih =>
    by_cases htext : event = .text
    · subst htext
      exact ih state
    · have hkept : (!event.isText) = true := by
        cases event with
        | text => exact absurd rfl htext
        | _ => rfl
      have hfilter : (event :: rest).filter (fun event => !event.isText) =
          event :: rest.filter fun event => !event.isText := List.filter_cons_of_pos hkept
      rw [hfilter, List.foldlM_cons, List.foldlM_cons]
      congr 1
      exact funext ih

def savedActions (registry : GameBindRegistry) (items : List (GameBindId × MultiInputBind))
    (state : XmlLoad) : XmlLoad :=
  { state with
    actionCount := state.actionCount + items.length
    report := { state.report with loaded := state.report.loaded + items.length }
    candidate := reloadActions registry items state.candidate }

theorem event_saved {registry : GameBindRegistry} (h : registry.Shape) {state : XmlLoad}
    (hdepth : state.depth = 1) {item : GameBindId × MultiInputBind}
    (hid : item.1 ≠ GameBindId.legacyMoveSwimUp) :
    state.event (XmlTag.empty "action" (registry.xmlActionAttributes item.1 item.2)).event =
      if maxXmlActions < state.actionCount + 1 then .error .limitExceeded
      else .ok (savedActions registry [item] state) := by
  have hroot : ¬(state.depth = 0 ∧ "action" = "InputBindings") := by
    rw [hdepth]
    exact fun hzero => absurd hzero.1 (by decide)
  show (if _ then _ else _) = _
  rw [if_neg hroot, if_pos ⟨hdepth, rfl⟩]
  unfold action
  rw [parseAttributes_written]
  split
  · rfl
  · show Except.ok _ = Except.ok _
    rw [applyXmlAction_saved h state.candidate hid]
    rfl

theorem savedActions_cons (registry : GameBindRegistry) (item : GameBindId × MultiInputBind)
    (rest : List (GameBindId × MultiInputBind)) (state : XmlLoad) :
    savedActions registry rest (savedActions registry [item] state) =
      savedActions registry (item :: rest) state := by
  have hcount : state.actionCount + 1 + rest.length = state.actionCount + (rest.length + 1) := by
    omega
  have hloaded : state.report.loaded + 1 + rest.length =
      state.report.loaded + (rest.length + 1) := by omega
  simp [savedActions, reloadActions, hcount, hloaded]

theorem events_saved {registry : GameBindRegistry} (h : registry.Shape)
    (items : List (GameBindId × MultiInputBind))
    (hids : ∀ item ∈ items, item.1 ≠ GameBindId.legacyMoveSwimUp) {state : XmlLoad}
    (hdepth : state.depth = 1) (hcount : state.actionCount ≤ maxXmlActions) :
    ((items.map fun item =>
        XmlTag.empty "action" (registry.xmlActionAttributes item.1 item.2)).map
          XmlTag.event).foldlM XmlLoad.event state =
      if maxXmlActions < state.actionCount + items.length then .error .limitExceeded
      else .ok (savedActions registry items state) := by
  induction items generalizing state with
  | nil =>
    have hroom : ¬maxXmlActions < state.actionCount + ([] : List Nat).length := not_lt.mpr hcount
    exact (if_neg hroom).symm
  | cons item rest ih =>
    rw [List.map_cons, List.map_cons, List.foldlM_cons,
      event_saved h hdepth (hids item List.mem_cons_self)]
    by_cases hfull : maxXmlActions < state.actionCount + 1
    · rw [if_pos hfull, if_pos (by rw [List.length_cons]; omega)]
      rfl
    · have hroom : (savedActions registry [item] state).actionCount ≤ maxXmlActions :=
        not_lt.mp hfull
      have hlength : (savedActions registry [item] state).actionCount + rest.length =
          state.actionCount + (item :: rest).length := by
        simp only [savedActions, List.length_cons, List.length_nil]
        omega
      have hstill : (savedActions registry [item] state).depth = 1 := hdepth
      have hrest := ih (fun item hitem => hids item (List.mem_cons_of_mem _ hitem)) hstill hroom
      rw [hlength, savedActions_cons] at hrest
      rw [if_neg hfull]
      exact hrest

end XmlLoad

end Nexus
