import Mathlib.Data.List.Basic
import Nexus.DrawSubmission

namespace Nexus.Imgui

open Fallible

variable {δ ν α : Type}

def elementsAt (pointer : Option (Nat → α)) (length : Nat) : List α :=
  match pointer with
  | none => []
  | some elements => (List.range length).map elements

def ImVector.elements (vector : ImVector α) : List α :=
  elementsAt vector.data vector.size.toInt.toNat

structure DrawListView.Viewed (list : DrawListView ν) : Prop where
  vertices : list.vertices = list.raw.vtxBuffer.elements
  indices : list.indices = list.raw.idxBuffer.elements
  commands : list.commands = list.raw.cmdBuffer.elements
  inside : ∀ command ∈ list.commands, command.userCallback = none →
    command.idxOffset.toNat + command.elemCount.toNat ≤ list.indices.length ∧
      command.vtxOffset.toNat ≤ list.vertices.length

def allVertices (lists : List (DrawListView ν)) : List ν :=
  (lists.map DrawListView.vertices).flatten

def allIndices (lists : List (DrawListView ν)) : List UInt16 :=
  (lists.map DrawListView.indices).flatten

structure Accepted (data : ImDrawData ν) (lists : List (DrawListView ν)) : Prop where
  raw : lists.map (fun list => some list.raw) =
    elementsAt data.cmdLists data.cmdListsCount.toInt.toNat
  viewed : ∀ list ∈ lists, list.Viewed
  vertices : (allVertices lists).length < 2 ^ 31
  indices : (allIndices lists).length < 2 ^ 31

variable {number : Int32} {error : RendererError δ} {value : Nat}

theorem toUsize_ok (h : toUsize number error = .ok value) : value = number.toInt.toNat := by
  unfold toUsize at h
  split at h
  · exact (Except.ok.inj h).symm
  · cases h

theorem toUsize_lt (h : toUsize number error = .ok value) : value < 2 ^ 31 := by
  have hlt := number.toInt_lt
  rw [toUsize_ok h]
  omega

theorem checkedAdd_ok {first second : Nat} (h : checkedAdd (δ := δ) first second = .ok value) :
    value = first + second := by
  unfold checkedAdd at h
  split at h
  · exact (Except.ok.inj h).symm
  · cases h

theorem checkedSlice_ok {elementSize length : Nat} {pointer : Option (Nat → α)} {elements : List α}
    (h : checkedSlice (δ := δ) elementSize pointer length = .ok elements) :
    elements = elementsAt pointer length ∧ elements.length = length := by
  unfold checkedSlice at h
  split at h
  next hzero =>
    cases h
    rw [hzero]
    cases pointer <;> exact ⟨rfl, rfl⟩
  next =>
    cases pointer with
    | none => cases h
    | some =>
      dsimp only at h
      split at h
      · cases h
      · cases h
        exact ⟨rfl, by rw [List.length_map, List.length_range]⟩

variable {answer : Unit}

theorem checkCommand_ok {vertexCount indexCount : Nat} {command : ImDrawCmd}
    (h : checkCommand (δ := δ) vertexCount indexCount command = .ok answer)
    (hdraw : command.userCallback = none) :
    command.idxOffset.toNat + command.elemCount.toNat ≤ indexCount ∧
      command.vtxOffset.toNat ≤ vertexCount := by
  unfold checkCommand at h
  rw [hdraw] at h
  obtain ⟨_, hlast, hcheck⟩ := except_bind_ok h
  rw [checkedAdd_ok hlast] at hcheck
  split at hcheck
  · cases hcheck
  · omega

theorem forM_ok {ε : Type} {check : α → Except ε Unit} {items : List α}
    (h : items.forM check = .ok answer) : ∀ item ∈ items, ∃ passed, check item = .ok passed := by
  induction items with
  | nil => exact fun _ hmem => nomatch hmem
  | cons _ _ ih =>
    obtain ⟨passed, hhead, hrest⟩ := except_bind_ok h
    intro item hmem
    rcases List.mem_cons.mp hmem with rfl | hmem
    · exact ⟨passed, hhead⟩
    · exact ih hrest item hmem

theorem viewList_ok {pointer : Option (ImDrawList ν)} {list : DrawListView ν}
    (h : viewList (δ := δ) pointer = .ok list) : pointer = some list.raw ∧ list.Viewed := by
  cases pointer with
  | none => cases h
  | some =>
    obtain ⟨_, hvertexCount, h⟩ := except_bind_ok h
    obtain ⟨_, hindexCount, h⟩ := except_bind_ok h
    obtain ⟨_, hcommandCount, h⟩ := except_bind_ok h
    obtain ⟨_, hvertices, h⟩ := except_bind_ok h
    obtain ⟨_, hindices, h⟩ := except_bind_ok h
    obtain ⟨_, hcommands, h⟩ := except_bind_ok h
    obtain ⟨_, hchecks, h⟩ := except_bind_ok h
    cases h
    obtain ⟨hvertices, hvertexLength⟩ := checkedSlice_ok hvertices
    obtain ⟨hindices, hindexLength⟩ := checkedSlice_ok hindices
    obtain ⟨hcommands, _⟩ := checkedSlice_ok hcommands
    rw [toUsize_ok hvertexCount] at hvertices
    rw [toUsize_ok hindexCount] at hindices
    rw [toUsize_ok hcommandCount] at hcommands
    refine ⟨rfl, hvertices, hindices, hcommands, fun command hmem hdraw => ?_⟩
    obtain ⟨_, hpassed⟩ := forM_ok hchecks command hmem
    dsimp only
    rw [hvertexLength, hindexLength]
    exact checkCommand_ok hpassed hdraw

variable {vertices indices : Nat} {lists : List (DrawListView ν)}

theorem collectFrom_ok {pointers : List (Option (ImDrawList ν))} {totals : Nat × Nat}
    (h : collectFrom (δ := δ) pointers vertices indices = .ok (lists, totals)) :
    lists.map (fun list => some list.raw) = pointers ∧ (∀ list ∈ lists, list.Viewed) ∧
      totals = (vertices + (allVertices lists).length, indices + (allIndices lists).length) := by
  induction pointers generalizing vertices indices lists totals with
  | nil =>
    cases h
    exact ⟨rfl, fun _ hmem => (by cases hmem), rfl⟩
  | cons _ _ ih =>
    obtain ⟨list, hlist, h⟩ := except_bind_ok h
    obtain ⟨_, hvertices, h⟩ := except_bind_ok h
    obtain ⟨_, hindices, h⟩ := except_bind_ok h
    obtain ⟨⟨_, _⟩, hrest, h⟩ := except_bind_ok h
    cases h
    obtain ⟨hpointer, hviewed⟩ := viewList_ok hlist
    obtain ⟨hraw, hall, htotals⟩ := ih hrest
    refine ⟨?_, ?_, ?_⟩
    · rw [List.map_cons, hraw, hpointer]
    · intro other hmem
      rcases List.mem_cons.mp hmem with rfl | hmem
      · exact hviewed
      · exact hall other hmem
    · unfold allVertices allIndices at htotals ⊢
      rw [htotals, checkedAdd_ok hvertices, checkedAdd_ok hindices, List.map_cons, List.map_cons,
        List.flatten_cons, List.flatten_cons, List.length_append, List.length_append, Nat.add_assoc,
        Nat.add_assoc]

theorem accepted {data : ImDrawData ν}
    (htotals : validateTotals (δ := δ) data = .ok (vertices, indices))
    (hlists : collectDrawLists (δ := δ) data vertices indices = .ok lists) :
    Accepted data lists ∧ (allVertices lists).length = vertices ∧
      (allIndices lists).length = indices := by
  obtain ⟨_, hcount, h⟩ := except_bind_ok hlists
  obtain ⟨_, hpointers, h⟩ := except_bind_ok h
  obtain ⟨⟨_, _, _⟩, hfound, h⟩ := except_bind_ok h
  obtain ⟨hraw, hviewed, hsums⟩ := collectFrom_ok hfound
  rw [Nat.zero_add, Nat.zero_add, Prod.mk.injEq] at hsums
  dsimp only at h
  split at h
  · cases h
  next =>
    cases h
    unfold validateTotals at htotals
    split at htotals
    · cases htotals
    · obtain ⟨_, hfirst, h⟩ := except_bind_ok htotals
      obtain ⟨_, hsecond, h⟩ := except_bind_ok h
      cases h
      have hvertices := toUsize_lt hfirst
      have hindices := toUsize_lt hsecond
      rw [toUsize_ok hcount] at hpointers
      rw [(checkedSlice_ok hpointers).1] at hraw
      refine ⟨⟨hraw, hviewed, ?_, ?_⟩, ?_, ?_⟩ <;> omega

theorem getElem?_flatten {before later : List (List α)} {list : List α} {place : Nat}
    (h : place < list.length) :
    (before ++ list :: later).flatten[before.flatten.length + place]? = list[place]? := by
  rw [List.flatten_append, List.flatten_cons, List.getElem?_append_right (Nat.le_add_right ..),
    Nat.add_sub_cancel_left, List.getElem?_append_left h]

theorem checkedOffset_of_lt {bits base : Nat} {offset : UInt32} (hbits : bits ≤ 64)
    (h : base + offset.toNat < 2 ^ bits) :
    checkedOffset (δ := δ) bits base offset = .ok (base + offset.toNat) := by
  have hadd : checkedAdd (δ := δ) base offset.toNat = .ok (base + offset.toNat) :=
    if_pos (Nat.lt_of_lt_of_le h (Nat.pow_le_pow_right Nat.two_pos hbits))
  unfold checkedOffset
  rw [hadd]
  exact if_pos h

section Uploads

def GpuBuffer.Holds (buffer : GpuBuffer α) (elements : List α) : Prop :=
  ∀ place < elements.length, buffer.contents place = elements[place]?

variable {buffer : GpuBuffer α}

theorem GpuBuffer.Holds.of_split {before later : List (List α)} {list : List α}
    (h : buffer.Holds (before ++ list :: later).flatten) {place : Nat} {value : α}
    (hget : list[place]? = some value) :
    buffer.contents (before.flatten.length + place) = some value := by
  obtain ⟨hlt, _⟩ := List.getElem?_eq_some_iff.mp hget
  rw [h, getElem?_flatten hlt, hget]
  rw [List.flatten_append, List.flatten_cons, List.length_append, List.length_append]
  omega

theorem copyLists_ok {lists : List (List α)} {destination : Nat} {buffer : GpuBuffer α}
    (h : destination + lists.flatten.length ≤ buffer.capacity) :
    ∃ after, copyLists (δ := δ) lists destination buffer = .ok after ∧
      after.capacity = buffer.capacity ∧
      (∀ place < destination, after.contents place = buffer.contents place) ∧
      ∀ place < lists.flatten.length,
        after.contents (destination + place) = lists.flatten[place]? := by
  induction lists generalizing destination buffer with
  | nil => exact ⟨buffer, rfl, rfl, fun _ _ => rfl, fun _ hlt => absurd hlt (Nat.not_lt_zero _)⟩
  | cons elements _ ih =>
    rw [List.flatten_cons, List.length_append] at h
    obtain ⟨after, hcopy, hcapacity, hbefore, hafter⟩ :=
      @ih (destination + elements.length) (buffer.write destination elements)
        (Nat.le_trans (Nat.le_of_eq (Nat.add_assoc ..)) h)
    refine ⟨after, ?_, hcapacity, fun place hlt => ?_, fun place hlt => ?_⟩
    · unfold copyLists
      rw [if_pos (by omega)]
      exact hcopy
    · rw [hbefore place (by omega)]
      exact if_neg (by omega)
    · rw [List.flatten_cons, List.length_append] at hlt
      rw [List.flatten_cons]
      by_cases hfirst : place < elements.length
      · rw [hbefore _ (by omega), List.getElem?_append_left hfirst]
        refine (if_pos (by omega)).trans ?_
        rw [Nat.add_sub_cancel_left]
      · have hrest := hafter (place - elements.length) (by omega)
        rw [List.getElem?_append_right (by omega), ← hrest]
        congr 1
        omega

structure GpuRenderer.Sound (renderer : GpuRenderer ν) : Prop where
  vertices : renderer.vertexBuffer.capacity = renderer.vertexCapacity
  indices : renderer.indexBuffer.capacity = renderer.indexCapacity

/-- A part of a frame that fails stays in bounds and leaves a sound renderer. -/
def Passes (Q : α → GpuRenderer ν → Prop) : Except (Stop δ) α → GpuRenderer ν → Prop
  | .ok value, renderer => Q value renderer
  | .error error, renderer => error ≠ .outOfBounds ∧ renderer.Sound

variable {β : Type} {P R : GpuRenderer ν → Prop}

theorem Passes.bind {x : Rendering ν δ α} {f : α → Rendering ν δ β}
    {S : α → GpuRenderer ν → Prop} {Q : β → GpuRenderer ν → Prop} (hx : Ensures P x (Passes S))
    (hf : ∀ value, Ensures (S value) (f value) (Passes Q)) :
    Ensures P (x >>= f) (Passes Q) := by
  refine Ensures.bind (R := S) (fun renderer h => ?_) hf
  have hpasses := hx renderer h
  rcases hresult : x renderer with ⟨_ | value, _⟩
  · rw [hresult] at hpasses
    exact hpasses
  · rw [hresult] at hpasses
    exact hpasses

theorem passes_read : Ensures P (read : Rendering ν δ (GpuRenderer ν))
    (Passes fun found renderer => P renderer ∧ renderer = found) := fun _ h => ⟨h, rfl⟩

theorem passes_ofExcept {ε : Type} (f : ε → Stop δ) (x : Except ε α)
    (hf : ∀ error, f error ≠ .outOfBounds) (hsound : ∀ renderer, P renderer → renderer.Sound) :
    Ensures P (ofExcept f x : Rendering ν δ α)
      (Passes fun value renderer => P renderer ∧ x = .ok value) := by
  intro renderer h
  cases x with
  | error error => exact ⟨hf error, hsound renderer h⟩
  | ok => exact ⟨h, rfl⟩

theorem passes_answered (answer : Except δ Unit)
    (hsound : ∀ renderer, P renderer → renderer.Sound) :
    Ensures P (answered answer : Rendering ν δ Unit) (Passes fun _ => P) := by
  refine (passes_ofExcept (fun error => .error (.device error)) answer (fun _ => nofun)
    hsound).mono (fun _ h => h) fun result _ h => ?_
  cases result with
  | error => exact h
  | ok => exact h.1

theorem passes_ensure (p : Prop) [Decidable p] (error : RendererError δ)
    (hsound : ∀ renderer, P renderer → renderer.Sound) :
    Ensures P (ensure p (.error error) : Rendering ν δ Unit) (Passes fun _ => P) :=
  Ensures.ensure (fun _ _ h => h) fun _ renderer h => ⟨nofun, hsound renderer h⟩

theorem passes_modify {f : GpuRenderer ν → GpuRenderer ν}
    (h : ∀ renderer, P renderer → R (f renderer)) :
    Ensures P (modify f : Rendering ν δ Unit) (Passes fun _ => R) := h

theorem passes_bump (hsound : ∀ renderer, P renderer → renderer.Sound)
    (hkeeps : ∀ renderer number, P renderer → P { renderer with resourceGeneration := number }) :
    Ensures P (bumpResourceGeneration : Rendering ν δ Unit) (Passes fun _ => P) := by
  refine Passes.bind passes_read fun found => ?_
  refine Passes.bind (S := fun _ => P) ?_ fun _ => passes_modify fun renderer => hkeeps renderer _
  refine (passes_ensure _ _ hsound).mono ?_ fun _ _ h => h
  exact fun _ h => h.1

theorem passes_ensureBuffer {answer : Except δ Unit} {wanted slack elementSize capacity : Nat}
    {store : GpuBuffer α → Nat → GpuRenderer ν → GpuRenderer ν}
    (hP : ∀ renderer, P renderer → renderer.Sound) (hR : ∀ renderer, R renderer → renderer.Sound)
    (hroom : wanted ≤ capacity → ∀ renderer, P renderer → R renderer)
    (hstore : ∀ buffer grown renderer, wanted ≤ grown → buffer.capacity = grown → P renderer →
      R (store buffer grown renderer))
    (hkeeps : ∀ renderer number, R renderer → R { renderer with resourceGeneration := number }) :
    Ensures P (ensureBuffer answer wanted slack elementSize capacity store)
      (Passes fun _ => R) := by
  unfold ensureBuffer
  split
  next =>
    refine Passes.bind (passes_ofExcept .error _ (fun _ => nofun) hP) fun grown => ?_
    have hsound : ∀ renderer : GpuRenderer ν,
        P renderer ∧ checkedAdd (δ := δ) wanted slack = .ok grown → renderer.Sound :=
      fun renderer h => hP renderer h.1
    have hcreate : Ensures (fun renderer : GpuRenderer ν => P renderer ∧
        checkedAdd (δ := δ) wanted slack = .ok grown)
        (createDynamicBuffer answer grown elementSize : Rendering ν δ (GpuBuffer α))
        (Passes fun buffer renderer => (P renderer ∧ checkedAdd (δ := δ) wanted slack = .ok grown) ∧
          buffer.capacity = grown) := by
      refine Passes.bind (passes_ensure _ _ hsound) fun _ => ?_
      refine Passes.bind (passes_answered _ hsound) fun _ => ?_
      exact fun renderer h => ⟨h, rfl⟩
    refine Passes.bind hcreate fun buffer => ?_
    refine Passes.bind (passes_modify fun renderer h => ?_) fun _ => passes_bump hR hkeeps
    exact hstore buffer grown renderer (checkedAdd_ok h.1.2 ▸ Nat.le_add_right ..) h.2 h.1.1
  next hroomy => exact fun renderer h => hroom (Nat.le_of_not_lt hroomy) renderer h

theorem passes_uploadLists {answer : Except δ Unit} {lists : List (List α)}
    {store : GpuBuffer α → GpuRenderer ν → GpuRenderer ν}
    (hP : ∀ renderer, P renderer → renderer.Sound)
    (hcapacity : lists.flatten.length ≤ buffer.capacity)
    (hzero : lists.flatten.length = 0 → ∀ renderer, P renderer → R renderer)
    (hstore : ∀ after renderer, after.capacity = buffer.capacity → after.Holds lists.flatten →
      P renderer → R (store after renderer)) :
    Ensures P (uploadLists answer lists.flatten.length lists buffer store) (Passes fun _ => R) := by
  unfold uploadLists
  split
  next =>
    refine Passes.bind (passes_answered answer hP) fun _ => ?_
    obtain ⟨after, hcopy, hsame, _, hafter⟩ := @copyLists_ok δ α lists 0 buffer.discard
      (Nat.le_trans (Nat.le_of_eq (Nat.zero_add _)) hcapacity)
    rw [hcopy]
    refine passes_modify fun renderer h => hstore after renderer hsame (fun place hlt => ?_) h
    have hplace := hafter place hlt
    rwa [Nat.zero_add] at hplace
  next hnone => exact hzero (Nat.eq_zero_of_not_pos hnone)

/-- The buffers hold what the lists hold, one list after another. -/
structure Loaded (lists : List (DrawListView ν)) (renderer : GpuRenderer ν) : Prop where
  sound : renderer.Sound
  vertices : renderer.vertexBuffer.Holds (allVertices lists)
  indices : renderer.indexBuffer.Holds (allIndices lists)

theorem passes_ensureDynamicBuffers (answers : FrameAnswers δ) (vertexCount indexCount : Nat) :
    Ensures (GpuRenderer.Sound (ν := ν)) (ensureDynamicBuffers answers vertexCount indexCount)
      (Passes fun _ renderer => (renderer.Sound ∧ vertexCount ≤ renderer.vertexCapacity) ∧
        indexCount ≤ renderer.indexCapacity) := by
  refine Passes.bind passes_read fun found => ?_
  refine Passes.bind (S := fun _ renderer => renderer.Sound ∧ vertexCount ≤ renderer.vertexCapacity)
    (passes_ensureBuffer (fun _ h => h.1) (fun _ h => h.1) ?_ ?_ fun _ _ h => ⟨⟨h.1.1, h.1.2⟩, h.2⟩)
    fun _ => ?_
  · rintro hroom renderer ⟨hsound, rfl⟩
    exact ⟨hsound, hroom⟩
  · rintro buffer grown renderer hle hcapacity ⟨hsound, _⟩
    exact ⟨⟨hcapacity, hsound.indices⟩, hle⟩
  · refine Passes.bind passes_read fun found => ?_
    refine passes_ensureBuffer (fun _ h => h.1.1) (fun _ h => h.1.1) ?_ ?_
      fun _ _ h => ⟨⟨⟨h.1.1.1, h.1.1.2⟩, h.1.2⟩, h.2⟩
    · rintro hroom renderer ⟨hsound, rfl⟩
      exact ⟨hsound, hroom⟩
    · rintro buffer grown renderer hle hcapacity ⟨⟨hsound, hvertices⟩, _⟩
      exact ⟨⟨⟨hsound.vertices, hcapacity⟩, hvertices⟩, hle⟩

theorem passes_uploadGeometry (answers : FrameAnswers δ) (lists : List (DrawListView ν)) :
    Ensures (fun renderer => (renderer.Sound ∧
        (allVertices lists).length ≤ renderer.vertexCapacity) ∧
        (allIndices lists).length ≤ renderer.indexCapacity)
      (uploadGeometry answers lists (allVertices lists).length (allIndices lists).length)
      (Passes fun _ => Loaded lists) := by
  refine Passes.bind passes_read fun found renderer h => ?_
  obtain ⟨⟨⟨hsound, hvertices⟩, hindices⟩, rfl⟩ := h
  refine Passes.bind (P := (· = renderer)) (S := fun _ other => (other.Sound ∧
    (allIndices lists).length ≤ other.indexCapacity) ∧ other.vertexBuffer.Holds (allVertices lists))
    (passes_uploadLists (fun _ h => h ▸ hsound) (hsound.vertices ▸ hvertices) ?_ ?_) (fun _ => ?_)
    renderer rfl
  · rintro hnone other rfl
    refine ⟨⟨hsound, hindices⟩, fun place hlt => ?_⟩
    unfold allVertices at hlt
    omega
  · rintro after other hcapacity hholds rfl
    exact ⟨⟨⟨hcapacity.trans hsound.vertices, hsound.indices⟩, hindices⟩, hholds⟩
  · refine Passes.bind passes_read fun found renderer h => ?_
    obtain ⟨⟨⟨hsound, hindices⟩, hvertices⟩, rfl⟩ := h
    refine passes_uploadLists (P := (· = renderer)) (fun _ h => h ▸ hsound)
      (hsound.indices ▸ hindices) ?_ ?_ renderer rfl
    · rintro hnone other rfl
      refine ⟨hsound, hvertices, fun place hlt => ?_⟩
      unfold allIndices at hlt
      omega
    · rintro after other hcapacity hholds rfl
      exact ⟨⟨hsound.vertices, hcapacity.trans hsound.indices⟩, hvertices, hholds⟩

theorem passes_prepare (frame : RenderFrame ν δ) :
    Ensures GpuRenderer.Sound (prepare frame) (Passes fun prepared renderer =>
      (∃ data, frame.drawData = some data ∧ validateGeometry (δ := δ) data = .ok prepared.1 ∧
        Accepted data prepared.2) ∧ Loaded prepared.2 renderer) := by
  refine Passes.bind passes_read fun found => ?_
  refine Passes.bind (passes_ensure _ _ fun _ h => h.1) fun _ => ?_
  refine Passes.bind (passes_answered _ fun _ h => h.1) fun _ => ?_
  cases hdata : frame.drawData with
  | none => exact fun renderer h => ⟨nofun, h.1⟩
  | some data =>
    rw [require_some, pure_bind']
    refine Passes.bind (passes_ofExcept .error _ (fun _ => nofun) fun _ h => h.1) fun geometry => ?_
    refine Passes.bind (passes_ofExcept .error _ (fun _ => nofun) fun _ h => h.1.1)
      fun ⟨vertexCount, indexCount⟩ => ?_
    refine Passes.bind (passes_ofExcept .error _ (fun _ => nofun) fun _ h => h.1.1.1)
      fun lists renderer h => ?_
    obtain ⟨⟨⟨⟨hsound, _⟩, hgeometry⟩, htotals⟩, hlists⟩ := h
    obtain ⟨haccepted, hvertices, hindices⟩ := accepted htotals hlists
    subst hvertices
    subst hindices
    refine Passes.bind (passes_ensureDynamicBuffers _ _ _) (fun _ => ?_) renderer hsound
    refine Passes.bind (passes_uploadGeometry _ _) fun _ => ?_
    refine Passes.bind (passes_answered _ fun _ h => h.sound) fun _ => ?_
    exact fun _ h => ⟨⟨data, rfl, hgeometry, haccepted⟩, h⟩

end Uploads

end Nexus.Imgui
