import Mathlib.Algebra.BigOperators.Group.List.Basic
import Mathlib.Algebra.GroupWithZero.Nat
import Mathlib.Order.Lattice

namespace Nexus

structure SortedMap (κ ν : Type) [LinearOrder κ] where
  toList : List (κ × ν)
  sorted : (toList.map Prod.fst).Pairwise (· < ·)

namespace SortedMap

variable {κ ν : Type} [LinearOrder κ]

def empty : SortedMap κ ν := ⟨[], .nil⟩

def find (k : κ) : List (κ × ν) → Option ν
  | [] => none
  | (key, value) :: rest => if key = k then some value else find k rest

def get? (map : SortedMap κ ν) (k : κ) : Option ν := find k map.toList

def place (k : κ) (v : ν) : List (κ × ν) → List (κ × ν)
  | [] => [(k, v)]
  | (key, value) :: rest =>
    if k < key then (k, v) :: (key, value) :: rest
    else if key = k then (k, v) :: rest
    else (key, value) :: place k v rest

variable {k : κ} {v : ν} {items : List (κ × ν)}

theorem mem_keys_place {a : κ} (h : a ∈ (place k v items).map Prod.fst) :
    a = k ∨ a ∈ items.map Prod.fst := by
  induction items with
  | nil => simpa [place] using h
  | cons item _ ih =>
    obtain ⟨_, _⟩ := item
    simp only [place] at h
    split at h
    · simpa using h
    split at h
    · rcases List.mem_cons.mp h with h | h
      · exact Or.inl h
      · exact Or.inr (List.mem_cons_of_mem _ h)
    · rcases List.mem_cons.mp h with h | h
      · exact Or.inr (by simp [h])
      · exact (ih h).imp_right (List.mem_cons_of_mem _)

theorem sorted_place (k : κ) (v : ν) (h : (items.map Prod.fst).Pairwise (· < ·)) :
    ((place k v items).map Prod.fst).Pairwise (· < ·) := by
  induction items with
  | nil => simp [place]
  | cons item _ ih =>
    obtain ⟨_, _⟩ := item
    obtain ⟨hhead, hrest⟩ := List.pairwise_cons.mp h
    simp only [place]
    split
    next hlt =>
      refine List.pairwise_cons.mpr ⟨fun a ha => ?_, h⟩
      rcases List.mem_cons.mp ha with rfl | ha
      · exact hlt
      · exact lt_trans hlt (hhead a ha)
    next hge =>
      split
      next heq =>
        subst heq
        exact List.pairwise_cons.mpr ⟨hhead, hrest⟩
      next hne =>
        refine List.pairwise_cons.mpr ⟨fun a ha => ?_, ih hrest⟩
        rcases mem_keys_place ha with rfl | ha
        · exact lt_of_le_of_ne (not_lt.mp hge) hne
        · exact hhead a ha

def put (map : SortedMap κ ν) (k : κ) (v : ν) : SortedMap κ ν :=
  ⟨place k v map.toList, sorted_place k v map.sorted⟩

def erase (map : SortedMap κ ν) (k : κ) : SortedMap κ ν :=
  ⟨map.toList.filter fun item => item.1 ≠ k,
    map.sorted.sublist (List.filter_sublist.map Prod.fst)⟩

@[simp] theorem get?_empty (k : κ) : (empty : SortedMap κ ν).get? k = none := rfl

theorem find_place (k a : κ) (v : ν) (items : List (κ × ν)) :
    find a (place k v items) = if a = k then some v else find a items := by
  induction items with
  | nil => simp [place, find, eq_comm]
  | cons item _ ih =>
    obtain ⟨key, _⟩ := item
    simp only [place]
    split
    · simp [find, eq_comm]
    split
    next heq =>
      subst heq
      by_cases h : a = key
      · simp [find, h]
      · simp [find, h, Ne.symm h]
    next hne =>
      by_cases h : key = a
      · subst h
        simp [find, hne]
      · simp only [find, if_neg h]
        exact ih

theorem get?_put (map : SortedMap κ ν) (k a : κ) (v : ν) :
    (map.put k v).get? a = if a = k then some v else map.get? a := find_place k a v map.toList

theorem get?_put_self (map : SortedMap κ ν) (k : κ) (v : ν) : (map.put k v).get? k = some v := by
  rw [get?_put, if_pos rfl]

theorem find_erase (k a : κ) (items : List (κ × ν)) :
    find a (items.filter fun item => item.1 ≠ k) = if a = k then none else find a items := by
  induction items with
  | nil => simp [find]
  | cons item _ ih =>
    obtain ⟨key, _⟩ := item
    by_cases hk : key = k
    · subst hk
      by_cases ha : a = key
      · simpa [ha, find] using ih
      · simpa [find, ha, Ne.symm ha] using ih
    · by_cases ha : key = a
      · subst ha
        simp [find, hk]
      · simpa [find, hk, ha] using ih

theorem get?_erase (map : SortedMap κ ν) (k a : κ) :
    (map.erase k).get? a = if a = k then none else map.get? a := find_erase k a map.toList

theorem place_place (k : κ) (v u : ν) (items : List (κ × ν)) :
    place k u (place k v items) = place k u items := by
  induction items with
  | nil => simp [place]
  | cons item _ ih =>
    obtain ⟨key, _⟩ := item
    by_cases hlt : k < key
    · simp [place, hlt]
    · by_cases heq : key = k
      · subst heq
        have hself : ¬key < key := lt_irrefl key
        simp only [place, hself, if_false, if_true]
      · simp [place, hlt, heq, ih]

@[simp] theorem put_put (map : SortedMap κ ν) (k : κ) (v u : ν) :
    (map.put k v).put k u = map.put k u := by
  unfold put
  congr 1
  exact place_place k v u map.toList

theorem find_mem (h : find k items = some v) : (k, v) ∈ items := by
  induction items with
  | nil => cases h
  | cons item _ ih =>
    obtain ⟨_, _⟩ := item
    simp only [find] at h
    split at h
    next heq =>
      obtain rfl := Option.some.inj h
      exact heq ▸ List.mem_cons_self ..
    next => exact List.mem_cons_of_mem _ (ih h)

theorem find_of_mem (hs : (items.map Prod.fst).Pairwise (· < ·)) (h : (k, v) ∈ items) :
    find k items = some v := by
  induction items with
  | nil => cases h
  | cons item _ ih =>
    obtain ⟨key, _⟩ := item
    obtain ⟨hhead, hrest⟩ := List.pairwise_cons.mp hs
    rcases List.mem_cons.mp h with heq | hmem
    · cases heq
      exact if_pos rfl
    · have hlt : key < k := hhead k (List.mem_map_of_mem hmem)
      simp only [find]
      rw [if_neg (ne_of_lt hlt)]
      exact ih hrest hmem

variable {map : SortedMap κ ν}

theorem get?_of_mem (h : (k, v) ∈ map.toList) : map.get? k = some v := find_of_mem map.sorted h

theorem filter_place {p : κ → Bool} (hk : p k = false) (v : ν) (items : List (κ × ν)) :
    (place k v items).filter (fun item => p item.1) = items.filter fun item => p item.1 := by
  induction items with
  | nil => simp [place, hk]
  | cons item _ ih =>
    obtain ⟨_, _⟩ := item
    simp only [place]
    split
    · rw [List.filter_cons_of_neg (by simp [hk])]
    split
    next heq =>
      subst heq
      rw [List.filter_cons_of_neg (by simp [hk]), List.filter_cons_of_neg (by simp [hk])]
    next => rw [List.filter_cons, List.filter_cons, ih]

theorem find_none_of_lt (h : ∀ a ∈ items.map Prod.fst, k < a) : find k items = none := by
  rcases hfind : find k items with _ | _
  · rfl
  · exact absurd (h k (List.mem_map_of_mem (find_mem hfind))) (lt_irrefl k)

theorem find_ext {a b : List (κ × ν)} (ha : (a.map Prod.fst).Pairwise (· < ·))
    (hb : (b.map Prod.fst).Pairwise (· < ·)) (h : ∀ k, find k a = find k b) : a = b := by
  induction a generalizing b with
  | nil =>
    cases b with
    | nil => rfl
    | cons item =>
      have hkey := h item.1
      simp [find] at hkey
  | cons item _ ih =>
    obtain ⟨key, value⟩ := item
    cases b with
    | nil =>
      have hkey := h key
      simp [find] at hkey
    | cons item' =>
      obtain ⟨key', value'⟩ := item'
      obtain ⟨hhead, hrest⟩ := List.pairwise_cons.mp ha
      obtain ⟨hhead', hrest'⟩ := List.pairwise_cons.mp hb
      -- the smallest key of either side is in the other
      have hsame : key = key' := by
        by_contra hne
        have hin := h key
        have hin' := h key'
        simp only [find, if_neg (Ne.symm hne), if_neg hne, if_true] at hin hin'
        have hlt := hhead' key (List.mem_map_of_mem (find_mem hin.symm))
        have hlt' := hhead key' (List.mem_map_of_mem (find_mem hin'))
        exact absurd hlt (lt_asymm hlt')
      subst hsame
      have hvalue : value = value' := by
        have hin := h key
        simpa [find] using hin
      subst hvalue
      congr 1
      refine ih hrest hrest' fun other => ?_
      by_cases heq : key = other
      · subst heq
        rw [find_none_of_lt hhead, find_none_of_lt hhead']
      · have hother := h other
        simpa [find, heq] using hother

@[ext] theorem ext_get? {a b : SortedMap κ ν} (h : ∀ k, a.get? k = b.get? k) : a = b := by
  have hlist : a.toList = b.toList := find_ext a.sorted b.sorted h
  obtain ⟨_, _⟩ := a
  obtain ⟨_, _⟩ := b
  cases hlist
  rfl

theorem find_eq_none (h : k ∉ items.map Prod.fst) : find k items = none := by
  rcases hfind : find k items with _ | _
  · rfl
  · exact absurd (List.mem_map_of_mem (find_mem hfind)) h

theorem find_ne_none (h : (k, v) ∈ items) : find k items ≠ none := by
  induction items with
  | nil => cases h
  | cons item _ ih =>
    obtain ⟨_, value⟩ := item
    unfold find
    split
    · exact Option.some_ne_none value
    next hne =>
      rcases List.mem_cons.mp h with heq | hmem
      · exact absurd (congrArg Prod.fst heq).symm hne
      · exact ih hmem

theorem find_append (k : κ) (a b : List (κ × ν)) : find k (a ++ b) = (find k a).or (find k b) := by
  induction a with
  | nil => rfl
  | cons item _ ih =>
    obtain ⟨key, _⟩ := item
    by_cases hkey : key = k
    · simp [find, hkey]
    · simpa [find, hkey] using ih

theorem get?_foldl_alter {α : Type} {items : List (κ × α)} (hnodup : (items.map Prod.fst).Nodup)
    (f : κ → α → Option ν → ν) (map : SortedMap κ ν) (k : κ) :
    (items.foldl (fun map item => map.put item.1 (f item.1 item.2 (map.get? item.1))) map).get? k =
      match find k items with
      | some a => some (f k a (map.get? k))
      | none => map.get? k := by
  induction items generalizing map with
  | nil => rfl
  | cons item rest ih =>
    obtain ⟨key, _⟩ := item
    rw [List.map_cons, List.nodup_cons] at hnodup
    rw [List.foldl_cons, ih hnodup.2, get?_put]
    by_cases hkey : k = key
    · subst hkey
      have hrest : find k rest = none := find_eq_none hnodup.1
      simp [hrest, find]
    · simp [hkey, find, Ne.symm hkey]

theorem get?_foldl_put (hnodup : (items.map Prod.fst).Nodup) (map : SortedMap κ ν) (k : κ) :
    (items.foldl (fun map item => map.put item.1 item.2) map).get? k =
      (find k items).or (map.get? k) := by
  refine (get?_foldl_alter hnodup (fun _ new _ => new) map k).trans ?_
  cases find k items <;> rfl

theorem get?_foldl_putSome (hnodup : (items.map Prod.fst).Nodup) (f : κ → ν → Option ν)
    (map : SortedMap κ ν) (k : κ) :
    (items.foldl (fun map item => ((f item.1 item.2).map (map.put item.1)).getD map) map).get? k =
      ((find k items).bind (f k)).or (map.get? k) := by
  induction items generalizing map with
  | nil => rfl
  | cons item rest ih =>
    obtain ⟨key, value⟩ := item
    rw [List.map_cons, List.nodup_cons] at hnodup
    rw [List.foldl_cons, ih hnodup.2]
    by_cases hkey : k = key
    · subst hkey
      have hrest : find k rest = none := find_eq_none hnodup.1
      rcases hput : f k value with _ | new
      · simp [hrest, find, hput]
      · simp [hrest, find, hput, get?_put_self]
    · rcases f key value with _ | new
      · simp [find, Ne.symm hkey]
      · simp [find, Ne.symm hkey, get?_put, hkey]

theorem get?_foldl_erase (keys : List κ) (a : κ) :
    ∀ map : SortedMap κ ν,
      (keys.foldl erase map).get? a = if a ∈ keys then none else map.get? a := by
  induction keys with
  | nil => exact fun _ => rfl
  | cons key rest ih =>
    intro map
    rw [List.foldl_cons, ih, get?_erase]
    by_cases hrest : a ∈ rest
    · simp [hrest]
    · by_cases hkey : a = key
      · simp [hkey]
      · simp [hrest, hkey]

theorem get?_mem (h : map.get? k = some v) : (k, v) ∈ map.toList := find_mem h

theorem mem_toList_iff : (k, v) ∈ map.toList ↔ map.get? k = some v := ⟨get?_of_mem, get?_mem⟩

def values (map : SortedMap κ ν) : List ν := map.toList.map Prod.snd

theorem mem_values_iff : v ∈ map.values ↔ ∃ k, map.get? k = some v := by
  constructor
  · intro h
    obtain ⟨⟨k, _⟩, hmem, rfl⟩ := List.mem_map.mp h
    exact ⟨k, get?_of_mem hmem⟩
  · rintro ⟨k, h⟩
    exact List.mem_map_of_mem (get?_mem h)

def filter (p : κ → ν → Bool) (map : SortedMap κ ν) : SortedMap κ ν :=
  ⟨map.toList.filter fun item => p item.1 item.2,
    map.sorted.sublist (List.filter_sublist.map Prod.fst)⟩

def mapValues (f : ν → ν) (map : SortedMap κ ν) : SortedMap κ ν :=
  ⟨map.toList.map fun item => (item.1, f item.2), by
    rw [List.map_map]
    exact map.sorted⟩

def mapEntries (f : κ → ν → ν) (map : SortedMap κ ν) : SortedMap κ ν :=
  ⟨map.toList.map fun item => (item.1, f item.1 item.2), by
    rw [List.map_map]
    exact map.sorted⟩

theorem get?_filter (p : κ → ν → Bool) (map : SortedMap κ ν) (k : κ) :
    (map.filter p).get? k = (map.get? k).filter (p k) := by
  refine Option.ext fun v => ?_
  rw [← mem_toList_iff, Option.filter_eq_some_iff, ← mem_toList_iff]
  exact List.mem_filter

theorem get?_mapEntries (f : κ → ν → ν) (map : SortedMap κ ν) (k : κ) :
    (map.mapEntries f).get? k = (map.get? k).map (f k) := by
  refine Option.ext fun v => ?_
  rw [← mem_toList_iff, Option.map_eq_some_iff]
  constructor
  · intro h
    obtain ⟨⟨_, value⟩, hmem, heq⟩ := List.mem_map.mp h
    cases heq
    exact ⟨value, get?_of_mem hmem, rfl⟩
  · rintro ⟨value, hget, rfl⟩
    exact List.mem_map.mpr ⟨(k, value), get?_mem hget, rfl⟩

theorem get?_mapValues (f : ν → ν) (map : SortedMap κ ν) (k : κ) :
    (map.mapValues f).get? k = (map.get? k).map f := get?_mapEntries (fun _ => f) map k

theorem nodup_toList (map : SortedMap κ ν) : map.toList.Nodup := by
  have hkeys : (map.toList.map Prod.fst).Nodup := map.sorted.imp fun h => ne_of_lt h
  exact List.Pairwise.of_map Prod.fst (fun _ _ hne heq => hne (congrArg Prod.fst heq)) hkeys

theorem perm_erase (h : map.get? k = some v) :
    map.toList.Perm ((k, v) :: (map.erase k).toList) := by
  refine (List.perm_ext_iff_of_nodup map.nodup_toList ?_).mpr fun ⟨key, value⟩ => ?_
  · refine List.nodup_cons.mpr ⟨fun hmem => ?_, (map.erase k).nodup_toList⟩
    rw [mem_toList_iff, get?_erase, if_pos rfl] at hmem
    cases hmem
  · rw [List.mem_cons, mem_toList_iff, mem_toList_iff, get?_erase]
    by_cases hkey : key = k
    · subst hkey
      rw [if_pos rfl, h]
      simp [eq_comm]
    · simp [hkey]

theorem perm_put (map : SortedMap κ ν) (k : κ) (v : ν) :
    (map.put k v).toList.Perm ((k, v) :: (map.erase k).toList) := by
  have hget : (map.put k v).get? k = some v := by rw [get?_put, if_pos rfl]
  have herase : (map.put k v).erase k = map.erase k := by
    refine ext_get? fun key => ?_
    rw [get?_erase, get?_erase, get?_put]
    split <;> rfl
  have hperm := perm_erase hget
  rw [herase] at hperm
  exact hperm

theorem place_above (v : ν) (h : ∀ key ∈ items.map Prod.fst, key < k) :
    place k v items = items ++ [(k, v)] := by
  induction items with
  | nil => rfl
  | cons item _ ih =>
    obtain ⟨key, _⟩ := item
    have hkey : key < k := h key List.mem_cons_self
    unfold place
    rw [if_neg (lt_asymm hkey), if_neg hkey.ne, ih fun other hother => h other
      (List.mem_cons_of_mem _ hother)]
    rfl

theorem toList_foldl_erase (keys : List κ) (map : SortedMap κ ν) :
    (keys.foldl erase map).toList = map.toList.filter fun item => item.1 ∉ keys := by
  induction keys generalizing map with
  | nil => simp
  | cons _ _ ih =>
    rw [List.foldl_cons, ih]
    unfold erase
    rw [List.filter_filter]
    refine List.filter_congr fun item _ => ?_
    simp only [List.mem_cons, not_or, Bool.decide_and, Bool.and_comm]

theorem perm_values_put (map : SortedMap κ ν) (k : κ) (v : ν) :
    (map.put k v).values.Perm (v :: (map.erase k).values) := (perm_put map k v).map Prod.snd

theorem values_erase_sublist (map : SortedMap κ ν) (k : κ) :
    (map.erase k).values.Sublist map.values := List.filter_sublist.map Prod.snd

theorem erase_of_absent (h : map.get? k = none) : map.erase k = map := by
  refine ext_get? fun key => ?_
  rw [get?_erase]
  split
  next heq => rw [heq, h]
  next => rfl

theorem length_erase (h : map.get? k = some v) :
    map.toList.length = (map.erase k).toList.length + 1 := (perm_erase h).length_eq

theorem length_put (map : SortedMap κ ν) (k : κ) (v : ν) :
    (map.put k v).toList.length = (map.erase k).toList.length + 1 := (perm_put map k v).length_eq

theorem length_erase_le (map : SortedMap κ ν) (k : κ) :
    (map.erase k).toList.length ≤ map.toList.length := List.length_filter_le ..

theorem length_put_le (map : SortedMap κ ν) (k : κ) (v : ν) :
    (map.put k v).toList.length ≤ map.toList.length + 1 := by
  rw [length_put]
  exact Nat.succ_le_succ (length_erase_le map k)

theorem length_put_of_get? {old : ν} (h : map.get? k = some old) (v : ν) :
    (map.put k v).toList.length = map.toList.length := by
  rw [length_put, length_erase h]

def total (f : ν → Nat) (map : SortedMap κ ν) : Nat := (map.values.map f).sum

theorem total_erase (f : ν → Nat) (h : map.get? k = some v) :
    map.total f = f v + (map.erase k).total f := by
  have hperm := ((perm_erase h).map Prod.snd).map f
  exact hperm.sum_eq

theorem total_put (f : ν → Nat) (map : SortedMap κ ν) (k : κ) (v : ν) :
    (map.put k v).total f = f v + (map.erase k).total f := by
  have hperm := ((perm_put map k v).map Prod.snd).map f
  exact hperm.sum_eq

theorem total_mapValues_le {f : ν → Nat} {g : ν → ν} (h : ∀ v, f (g v) ≤ f v)
    (map : SortedMap κ ν) : (map.mapValues g).total f ≤ map.total f := by
  unfold total values mapValues
  dsimp only
  induction map.toList with
  | nil => exact le_refl 0
  | cons item _ ih =>
    simp only [List.map_cons, List.sum_cons]
    exact Nat.add_le_add (h item.2) ih

end SortedMap

end Nexus
