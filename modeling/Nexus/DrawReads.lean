import Mathlib.Data.List.Forall2
import Mathlib.Data.List.ReduceOption
import Nexus.DrawGeometry

namespace Nexus.Imgui

open Fallible

variable {δ ν α : Type}

/-- The indices and vertices that a draw fetches from the buffers are those of its list. -/
structure Fetches (renderer : GpuRenderer ν) (list : DrawListView ν) (command : ImDrawCmd)
    (draw : TranslatedCommand) : Prop where
  count : draw.elementCount = command.elemCount
  texture : draw.texture = command.textureId
  elements : ∀ place < command.elemCount.toNat, ∃ index,
    list.indices[command.idxOffset.toNat + place]? = some index ∧
    renderer.indexBuffer.contents (draw.startIndex + place) = some index ∧
    ∀ vertex, list.vertices[command.vtxOffset.toNat + index.toNat]? = some vertex →
      renderer.vertexBuffer.contents (draw.baseVertex + index.toNat) = some vertex

inductive Issued (geometry : FrameGeometry) (renderer : GpuRenderer ν) (list : DrawListView ν)
    (command : ImDrawCmd) : Option (GpuEvent ν) → Prop where
  | reset (h : command.userCallback = some RESET_RENDER_STATE_CALLBACK) :
    Issued geometry renderer list command (some .setupRenderState)
  | callback {address : UInt64} (h : command.userCallback = some address)
      (hne : address ≠ RESET_RENDER_STATE_CALLBACK) :
    Issued geometry renderer list command (some (.callback list.raw command))
  | clipped (h : command.userCallback = none)
      (hclip : scissorRect geometry (clipRect geometry command.clipRect) = none) :
    Issued geometry renderer list command none
  | draw {draw : TranslatedCommand} {rect : ImVec4} (h : command.userCallback = none)
      (hclip : scissorRect geometry (clipRect geometry command.clipRect) = some rect)
      (hfetches : Fetches renderer list command draw) :
    Issued geometry renderer list command (some (.draw draw))

def GpuEvent.elements : GpuEvent ν → Nat
  | .draw command => command.elementCount.toNat
  | _ => 0

def commandsOf (lists : List (DrawListView ν)) : List (DrawListView ν × ImDrawCmd) :=
  lists.flatMap fun list => list.commands.map fun command => (list, command)

/-- The commands up to some place were issued in order, all of them when the result is a success. -/
structure Submits (geometry : FrameGeometry) (renderer : GpuRenderer ν)
    (commands : List (DrawListView ν × ImDrawCmd)) (stats : RenderStats)
    (result : Except (Stop δ) RenderStats) (events : List (GpuEvent ν)) : Prop where
  inBounds : result ≠ .error .outOfBounds
  issued : ∃ outcomes done, done <+: commands ∧ events = outcomes.reduceOption ∧
    List.Forall₂ (fun item => Issued geometry renderer item.1 item.2) done outcomes ∧
    ∀ final, result = .ok final → done = commands ∧
      final.elements = stats.elements + (events.map GpuEvent.elements).sum

section Submissions

variable {geometry : FrameGeometry} {renderer : GpuRenderer ν} {stats : RenderStats}
  {commands later : List (DrawListView ν × ImDrawCmd)} {events more : List (GpuEvent ν)}
  {result : Except (Stop δ) RenderStats}

theorem Submits.stopped {error : Stop δ} (h : error ≠ .outOfBounds) :
    Submits geometry renderer commands stats (.error error) [] :=
  ⟨fun hsame => h (Except.error.inj hsame), [], [], List.nil_prefix, rfl, .nil, nofun⟩

theorem Submits.none : Submits (δ := δ) geometry renderer [] stats (.ok stats) [] :=
  ⟨nofun, [], [], List.nil_prefix, rfl, .nil, fun _ hfinal => ⟨rfl, Except.ok.inj hfinal ▸ rfl⟩⟩

theorem Submits.one {item : DrawListView ν × ImDrawCmd} (outcome : Option (GpuEvent ν))
    (h : Issued geometry renderer item.1 item.2 outcome) (hresult : result ≠ .error .outOfBounds)
    (hstats : ∀ final, result = .ok final →
      final.elements = stats.elements + (outcome.toList.map GpuEvent.elements).sum) :
    Submits geometry renderer [item] stats result outcome.toList := by
  refine ⟨hresult, [outcome], [item], List.prefix_rfl, ?_, .cons h .nil, fun final hfinal =>
    ⟨rfl, hstats final hfinal⟩⟩
  cases outcome <;> rfl

theorem Submits.extend (h : Submits geometry renderer commands stats result events)
    {error : Stop δ} (herror : error ≠ .outOfBounds) :
    Submits geometry renderer (commands ++ later) stats (.error error) events := by
  obtain ⟨outcomes, done, hdone, hevents, hissued, _⟩ := h.issued
  exact ⟨fun hsame => herror (Except.error.inj hsame), outcomes, done,
    hdone.trans (List.prefix_append ..), hevents, hissued, nofun⟩

theorem Submits.append {middle : RenderStats}
    (h : Submits (δ := δ) geometry renderer commands stats (.ok middle) events)
    (hmore : Submits geometry renderer later middle result more) :
    Submits geometry renderer (commands ++ later) stats result (events ++ more) := by
  obtain ⟨outcomes, done, _, hevents, hissued, hfinal⟩ := h.issued
  obtain ⟨others, rest, hrest, hmoreEvents, hmoreIssued, hlast⟩ := hmore.issued
  obtain ⟨rfl, hmiddle⟩ := hfinal middle rfl
  refine ⟨hmore.inBounds, outcomes ++ others, done ++ rest, ?_, ?_,
    List.rel_append hissued hmoreIssued, fun final hok => ?_⟩
  · exact (List.prefix_append_right_inj done).mpr hrest
  · rw [hevents, hmoreEvents, List.reduceOption_append]
  · obtain ⟨rfl, hsum⟩ := hlast final hok
    refine ⟨rfl, ?_⟩
    rw [hsum, hmiddle, List.map_append, List.sum_append, Nat.add_assoc]

def Counts (work : Submission ν δ RenderStats) (elements : Nat) : Prop :=
  ∀ log, ∃ result, work log = (result, log) ∧ result ≠ .error .outOfBounds ∧
    ∀ final, result = .ok final → final.elements = elements

theorem counts_count {bits value added elements : Nat} {rest : Nat → Submission ν δ RenderStats}
    (h : Counts (rest (value + added)) elements) :
    Counts (count bits value added >>= rest) elements := by
  intro log
  unfold count
  split
  · exact h log
  · exact ⟨_, rfl, nofun, nofun⟩

theorem counts_pure (stats : RenderStats) :
    Counts (pure stats : Submission ν δ RenderStats) stats.elements := by
  intro log
  refine ⟨.ok stats, rfl, nofun, fun final h => ?_⟩
  rw [Except.ok.inj h]

theorem emitted {list : DrawListView ν} {command : ImDrawCmd} {event : GpuEvent ν}
    {work : Submission ν δ RenderStats}
    (hissued : Issued geometry renderer list command (some event))
    (h : Counts work (stats.elements + event.elements)) (log : List (GpuEvent ν)) :
    ∃ result other, (emit event >>= fun _ => work) log = (result, log ++ [other]) ∧
      Submits geometry renderer [(list, command)] stats result [other] := by
  obtain ⟨result, hwork, hbounds, hfinal⟩ := h (log ++ [event])
  exact ⟨result, event, hwork, Submits.one (some event) hissued hbounds hfinal⟩

inductive Translated (geometry : FrameGeometry) (renderer : GpuRenderer ν) (list : DrawListView ν)
    (command : ImDrawCmd) (translated : TranslatedCommand) : Prop where
  | reset (h : command.userCallback = some RESET_RENDER_STATE_CALLBACK)
    (hkind : translated.kind = .resetState)
  | callback {address : UInt64} (h : command.userCallback = some address)
    (hne : address ≠ RESET_RENDER_STATE_CALLBACK) (hkind : translated.kind = .callback)
  | draw (h : Issued geometry renderer list command (some (.draw translated)))
    (hkind : translated.kind = .draw)

theorem submitCommand_issued {list : DrawListView ν} {command : ImDrawCmd}
    {translated : TranslatedCommand}
    (h : Translated geometry renderer list command translated) (log : List (GpuEvent ν)) :
    ∃ (result : Except (Stop δ) RenderStats) (event : GpuEvent ν),
      submitCommand list command translated stats log = (result, log ++ [event]) ∧
      Submits geometry renderer [(list, command)] stats result [event] := by
  unfold submitCommand
  cases h with
  | reset h hkind =>
    rw [hkind]
    refine emitted (.reset h) ?_ log
    exact counts_count (counts_pure _)
  | callback h hne hkind =>
    rw [hkind, h]
    refine emitted (.callback h hne) ?_ log
    exact counts_count (counts_pure _)
  | draw h hkind =>
    rw [hkind]
    refine emitted h ?_ log
    exact counts_count (counts_count (counts_pure _))

/-- A list with the offsets at which its own elements begin in the buffers. -/
structure Placed (renderer : GpuRenderer ν) (list : DrawListView ν)
    (vertexOffset indexOffset : Nat) : Prop where
  viewed : list.Viewed
  vertices : ∀ place vertex, list.vertices[place]? = some vertex →
    renderer.vertexBuffer.contents (vertexOffset + place) = some vertex
  indices : ∀ place index, list.indices[place]? = some index →
    renderer.indexBuffer.contents (indexOffset + place) = some index

theorem Loaded.placed {lists before later : List (DrawListView ν)} {list : DrawListView ν}
    (h : Loaded lists renderer) (hviewed : ∀ list ∈ lists, list.Viewed)
    (hsplit : lists = before ++ list :: later) :
    Placed renderer list (allVertices before).length (allIndices before).length := by
  have hvertices := h.vertices
  have hindices := h.indices
  unfold allVertices at hvertices
  unfold allIndices at hindices
  rw [hsplit, List.map_append, List.map_cons] at hvertices hindices
  refine ⟨hviewed list ?_, fun _ _ => hvertices.of_split, fun _ _ => hindices.of_split⟩
  rw [hsplit]
  exact List.mem_append_right _ List.mem_cons_self

variable {list : DrawListView ν} {vertexOffset indexOffset : Nat}

theorem Placed.fetches (h : Placed renderer list vertexOffset indexOffset) {command : ImDrawCmd}
    (hmem : command ∈ list.commands) (hdraw : command.userCallback = none)
    {draw : TranslatedCommand} (hcount : draw.elementCount = command.elemCount)
    (htexture : draw.texture = command.textureId)
    (hstart : draw.startIndex = indexOffset + command.idxOffset.toNat)
    (hbase : draw.baseVertex = vertexOffset + command.vtxOffset.toNat) :
    Fetches renderer list command draw := by
  refine ⟨hcount, htexture, fun place hplace => ?_⟩
  have hinside := (h.viewed.inside command hmem hdraw).1
  have hget := List.getElem?_eq_getElem
    (show command.idxOffset.toNat + place < list.indices.length by omega)
  refine ⟨_, hget, ?_, fun vertex hvertex => ?_⟩
  · rw [hstart, Nat.add_assoc]
    exact h.indices _ _ hget
  · rw [hbase, Nat.add_assoc]
    exact h.vertices _ _ hvertex

theorem checkedOffset_ok {bits base value : Nat} {offset : UInt32}
    (h : checkedOffset (δ := δ) bits base offset = .ok value) : value = base + offset.toNat := by
  obtain ⟨_, hsum, h⟩ := except_bind_ok h
  split at h
  · rw [← Except.ok.inj h]
    exact checkedAdd_ok hsum
  · cases h

theorem Placed.translated (h : Placed renderer list vertexOffset indexOffset) {command : ImDrawCmd}
    (hmem : command ∈ list.commands) {answer : Option TranslatedCommand}
    (hanswer : translateCommand (δ := δ) command geometry vertexOffset indexOffset = .ok answer) :
    answer = none ∧ Issued geometry renderer list command none ∨
      ∃ translated, answer = some translated ∧
        Translated geometry renderer list command translated := by
  unfold translateCommand at hanswer
  cases hcallback : command.userCallback with
  | some address =>
    rw [hcallback] at hanswer
    cases hanswer
    refine Or.inr ⟨_, rfl, ?_⟩
    by_cases hreset : address = RESET_RENDER_STATE_CALLBACK
    · exact .reset (hreset ▸ hcallback) (if_pos hreset)
    · exact .callback hcallback hreset (if_neg hreset)
  | none =>
    rw [hcallback] at hanswer
    dsimp only at hanswer
    split at hanswer
    · cases hanswer
    · split at hanswer
      next hclip =>
        cases hanswer
        exact Or.inl ⟨rfl, .clipped hcallback hclip⟩
      next hclip =>
        obtain ⟨_, hstart, hanswer⟩ := except_bind_ok hanswer
        obtain ⟨_, hbase, hanswer⟩ := except_bind_ok hanswer
        obtain ⟨_, _, hanswer⟩ := except_bind_ok hanswer
        obtain ⟨_, _, hanswer⟩ := except_bind_ok hanswer
        obtain ⟨_, _, hanswer⟩ := except_bind_ok hanswer
        obtain ⟨_, _, hanswer⟩ := except_bind_ok hanswer
        cases hanswer
        refine Or.inr ⟨_, rfl, .draw (.draw hcallback hclip ?_) rfl⟩
        exact h.fetches hmem hcallback rfl rfl (checkedOffset_ok hstart) (checkedOffset_ok hbase)

theorem submitCommands_issued (h : Placed renderer list vertexOffset indexOffset)
    {commands : List ImDrawCmd} (hmem : ∀ command ∈ commands, command ∈ list.commands)
    (stats : RenderStats) (log : List (GpuEvent ν)) :
    ∃ (result : Except (Stop δ) RenderStats) (events : List (GpuEvent ν)),
      submitCommands geometry list vertexOffset indexOffset commands stats log =
        (result, log ++ events) ∧
      Submits geometry renderer (commands.map fun command => (list, command)) stats result
        events := by
  induction commands generalizing stats log with
  | nil =>
    exact ⟨.ok stats, [], by rw [List.append_nil]; rfl, .none⟩
  | cons command _ ih =>
    have hrest := fun other hother => hmem other (List.mem_cons_of_mem _ hother)
    unfold submitCommands
    cases hanswer : translateCommand (δ := δ) command geometry vertexOffset indexOffset with
    | error error => exact ⟨.error (.error error), [], by rw [List.append_nil]; rfl, .stopped nofun⟩
    | ok =>
      rcases h.translated (hmem command List.mem_cons_self) hanswer with
        ⟨rfl, hissued⟩ | ⟨translated, rfl, htranslated⟩
      · obtain ⟨result, events, hrun, hsubmits⟩ := ih hrest stats log
        have hone : Submits (δ := δ) geometry renderer [(list, command)] stats (.ok stats) [] :=
          Submits.one none hissued nofun fun final hfinal => Except.ok.inj hfinal ▸ rfl
        exact ⟨result, events, hrun, hone.append hsubmits⟩
      · obtain ⟨first, event, hfirst, hone⟩ := submitCommand_issued (δ := δ) htranslated log
        rw [ofExcept_ok, pure_bind']
        dsimp only
        cases first with
        | error =>
          rw [bind_of_error hfirst]
          exact ⟨_, _, rfl, hone.extend fun hsame => hone.inBounds (hsame ▸ rfl)⟩
        | ok middle =>
          rw [bind_of_ok hfirst]
          obtain ⟨result, events, hrun, hsubmits⟩ := ih hrest middle (log ++ [event])
          refine ⟨result, [event] ++ events, ?_, hone.append hsubmits⟩
          rw [hrun, List.append_assoc]

theorem submitLists_issued {all before lists : List (DrawListView ν)} (h : Loaded all renderer)
    (hviewed : ∀ list ∈ all, list.Viewed) (hsplit : all = before ++ lists)
    (stats : RenderStats) (log : List (GpuEvent ν)) :
    ∃ (result : Except (Stop δ) RenderStats) (events : List (GpuEvent ν)),
      submitLists geometry lists (allVertices before).length (allIndices before).length stats log =
        (result, log ++ events) ∧
      Submits geometry renderer (commandsOf lists) stats result events := by
  induction lists generalizing before stats log with
  | nil =>
    exact ⟨.ok stats, [], by rw [List.append_nil]; rfl, .none⟩
  | cons list _ ih =>
    obtain ⟨first, events, hfirst, hone⟩ := submitCommands_issued (δ := δ)
      (h.placed hviewed hsplit) (fun _ hmem => hmem) stats log
    unfold submitLists
    cases first with
    | error =>
      rw [bind_of_error hfirst]
      exact ⟨_, events, rfl, hone.extend fun hsame => hone.inBounds (hsame ▸ rfl)⟩
    | ok middle =>
      rw [bind_of_ok hfirst]
      cases hvertices : checkedAdd (δ := δ) (allVertices before).length list.vertices.length with
      | error error => exact ⟨.error (.error error), events, rfl, hone.extend nofun⟩
      | ok vertexOffset =>
        cases hindices : checkedAdd (δ := δ) (allIndices before).length list.indices.length with
        | error error => exact ⟨.error (.error error), events, rfl, hone.extend nofun⟩
        | ok indexOffset =>
          have hvertexOffset : vertexOffset = (allVertices (before ++ [list])).length := by
            rw [checkedAdd_ok hvertices]
            simp [allVertices]
          have hindexOffset : indexOffset = (allIndices (before ++ [list])).length := by
            rw [checkedAdd_ok hindices]
            simp [allIndices]
          obtain ⟨result, more, hrun, hsubmits⟩ := @ih (before ++ [list])
            (by rw [hsplit, List.append_assoc]; rfl) middle (log ++ events)
          refine ⟨result, events ++ more, ?_, hone.append hsubmits⟩
          rw [ofExcept_ok, pure_bind', ofExcept_ok, pure_bind', hvertexOffset, hindexOffset, hrun,
            List.append_assoc]

end Submissions

/-- What holds of a frame: the copies stay inside the buffers, no offset of an accepted command is
out of range, and what is issued is, in order, what the accepted lists ask for. -/
structure FrameCorrect (frame : RenderFrame ν δ) (renderer : GpuRenderer ν) : Prop where
  inBounds : (render frame renderer).1 ≠ .error .outOfBounds
  offsets : ∀ (data : ImDrawData ν) (vertexCount indexCount : Nat) (lists : List (DrawListView ν)),
    validateTotals (δ := δ) data = .ok (vertexCount, indexCount) →
    collectDrawLists (δ := δ) data vertexCount indexCount = .ok lists →
    ∀ before list later, lists = before ++ list :: later → ∀ command ∈ list.commands,
      command.userCallback = none →
      checkedOffset (δ := δ) 32 (allIndices before).length command.idxOffset =
        .ok ((allIndices before).length + command.idxOffset.toNat) ∧
      checkedOffset (δ := δ) 31 (allVertices before).length command.vtxOffset =
        .ok ((allVertices before).length + command.vtxOffset.toNat)
  issued : (render frame renderer).2.1 = [] ∧ (∀ stats, (render frame renderer).1 ≠ .ok stats) ∨
    ∃ data geometry lists result events, frame.drawData = some data ∧
      validateGeometry (δ := δ) data = .ok geometry ∧ Accepted data lists ∧
      (render frame renderer).2.1 = .setupRenderState :: events ∧
      (∀ stats, (render frame renderer).1 = .ok stats → result = .ok stats) ∧
      Submits (δ := δ) geometry (render frame renderer).2.2 (commandsOf lists) ⟨0, 0, 0, 0⟩ result
        events

theorem offsets_in_range {data : ImDrawData ν} {vertexCount indexCount : Nat}
    {lists before later : List (DrawListView ν)} {list : DrawListView ν} {command : ImDrawCmd}
    (htotals : validateTotals (δ := δ) data = .ok (vertexCount, indexCount))
    (hlists : collectDrawLists (δ := δ) data vertexCount indexCount = .ok lists)
    (hsplit : lists = before ++ list :: later) (hmem : command ∈ list.commands)
    (hdraw : command.userCallback = none) :
    checkedOffset (δ := δ) 32 (allIndices before).length command.idxOffset =
        .ok ((allIndices before).length + command.idxOffset.toNat) ∧
      checkedOffset (δ := δ) 31 (allVertices before).length command.vtxOffset =
        .ok ((allVertices before).length + command.vtxOffset.toNat) := by
  obtain ⟨⟨_, hviewed, hvertices, hindices⟩, _⟩ := accepted htotals hlists
  rw [hsplit] at hviewed hvertices hindices
  have hview := hviewed list (List.mem_append_right _ List.mem_cons_self)
  have hinside := hview.inside command hmem hdraw
  simp only [allVertices, allIndices, List.map_append, List.map_cons, List.flatten_append,
    List.flatten_cons, List.length_append] at hvertices hindices
  refine ⟨checkedOffset_of_lt (by decide) ?_, checkedOffset_of_lt (by decide) ?_⟩
  · unfold allIndices
    omega
  · unfold allVertices
    omega

theorem submitDraws_issued {data : ImDrawData ν} {lists : List (DrawListView ν)}
    {geometry : FrameGeometry} {renderer : GpuRenderer ν} (h : Loaded lists renderer)
    (haccepted : Accepted data lists) :
    ∃ (result : Except (Stop δ) RenderStats) (events : List (GpuEvent ν)),
      submitDraws geometry lists [] = (result, .setupRenderState :: events) ∧
      Submits geometry renderer (commandsOf lists) ⟨0, 0, 0, 0⟩ result events := by
  exact @submitLists_issued δ ν geometry renderer lists [] lists h haccepted.viewed rfl
    ⟨0, 0, 0, 0⟩ [.setupRenderState]

theorem render_cases {renderer : GpuRenderer ν} (h : renderer.Sound) (frame : RenderFrame ν δ) :
    ∃ result events after, render frame renderer = (result, events, after) ∧ after.Sound ∧
      result ≠ .error .outOfBounds ∧ (events = [] ∧ (∀ stats, result ≠ .ok stats) ∨
        ∃ data geometry lists submitted issued, frame.drawData = some data ∧
          validateGeometry (δ := δ) data = .ok geometry ∧ Accepted data lists ∧
          events = .setupRenderState :: issued ∧
          (∀ stats, result = .ok stats → submitted = .ok stats) ∧
          Submits (δ := δ) geometry after (commandsOf lists) ⟨0, 0, 0, 0⟩ submitted issued) := by
  have hpasses := passes_prepare frame renderer h
  unfold render
  rcases hprepare : prepare frame renderer with ⟨error | ⟨geometry, lists⟩, after⟩
  · rw [hprepare] at hpasses
    obtain ⟨herror, hsound⟩ := hpasses
    exact ⟨_, _, _, rfl, hsound, fun hsame => herror (Except.error.inj hsame), Or.inl ⟨rfl, nofun⟩⟩
  · rw [hprepare] at hpasses
    obtain ⟨⟨data, hdata, hgeometry, haccepted⟩, hloaded⟩ := hpasses
    obtain ⟨submitted, issued, hrun, hsubmits⟩ := @submitDraws_issued δ ν data lists geometry after
      hloaded haccepted
    dsimp only [guardedOperation]
    cases frame.answers.capture with
    | error => exact ⟨_, _, _, rfl, hloaded.sound, nofun, Or.inl ⟨rfl, nofun⟩⟩
    | ok =>
      dsimp only
      rw [hrun]
      cases frame.answers.restore with
      | error =>
        exact ⟨_, _, _, rfl, hloaded.sound, nofun, Or.inr ⟨data, geometry, lists, submitted, issued,
          hdata, hgeometry, haccepted, rfl, nofun, hsubmits⟩⟩
      | ok =>
        exact ⟨_, _, _, rfl, hloaded.sound, hsubmits.inBounds, Or.inr ⟨data, geometry, lists,
          submitted, issued, hdata, hgeometry, haccepted, rfl, fun _ => id, hsubmits⟩⟩

theorem ends_sound {work : Rendering ν δ α} {Q : α → GpuRenderer ν → Prop}
    {renderer : GpuRenderer ν} (hwork : Ensures GpuRenderer.Sound work (Passes Q))
    (hQ : ∀ value after, Q value after → after.Sound) (h : renderer.Sound) :
    (work renderer).2.Sound := by
  have hpasses := hwork renderer h
  rcases hresult : work renderer with ⟨_ | value, after⟩
  · rw [hresult] at hpasses
    exact hpasses.2
  · rw [hresult] at hpasses
    exact hQ value after hpasses

theorem sound_run {renderer : GpuRenderer ν} (h : renderer.Sound) (call : RendererCall ν δ) :
    (call.run renderer).Sound := by
  have hkeeps : ∀ (renderer : GpuRenderer ν) (number : Nat), renderer.Sound →
      GpuRenderer.Sound { renderer with resourceGeneration := number } :=
    fun _ _ h => ⟨h.vertices, h.indices⟩
  have hbump : Ensures (GpuRenderer.Sound (ν := ν)) (bumpResourceGeneration : Rendering ν δ Unit)
      (Passes fun _ => GpuRenderer.Sound) := passes_bump (fun _ h => h) hkeeps
  have hread := passes_read (δ := δ) (P := GpuRenderer.Sound (ν := ν))
  cases call with
  | render frame =>
    obtain ⟨_, _, _, hrender, hsound, _⟩ := render_cases h frame
    have hafter : (render frame renderer).2.2.Sound := by
      rw [hrender]
      exact hsound
    exact hafter
  | rebuildFontTexture | recreateBackBuffer =>
    refine ends_sound (Passes.bind hread fun found => ?_) (fun _ _ h => h) h
    refine Passes.bind (passes_ensure _ _ fun _ h => h.1) fun _ => ?_
    refine Passes.bind (passes_answered _ fun _ h => h.1) fun _ => ?_
    exact hbump.mono (fun _ h => h.1) fun _ _ h => h
  | synchronizeGeneration =>
    refine ends_sound (Passes.bind hread fun found => ?_) (fun _ _ h => h) h
    refine Passes.bind (passes_ensure _ _ fun _ h => h.1) fun _ => ?_
    split
    · refine Passes.bind (passes_modify (R := GpuRenderer.Sound) fun _ h => ?_) fun _ => hbump
      exact ⟨h.1.vertices, h.1.indices⟩
    · exact fun _ h => h.1

theorem sound_runs {renderer : GpuRenderer ν} (h : renderer.Sound)
    (calls : List (RendererCall ν δ)) : (calls.foldl RendererCall.run renderer).Sound := by
  induction calls generalizing renderer with
  | nil => exact h
  | cons call _ ih => exact ih (sound_run h call)

/-- After any calls, failed or not, a frame draws from the buffers what its lists hold. -/
theorem draws_read_frame_geometry (generation : Nat) (calls : List (RendererCall ν δ))
    (frame : RenderFrame ν δ) :
    FrameCorrect frame (calls.foldl RendererCall.run (GpuRenderer.attach generation)) := by
  have hattach : (GpuRenderer.attach (ν := ν) generation).Sound := ⟨rfl, rfl⟩
  have hsound := sound_runs hattach calls
  obtain ⟨_, _, _, hrender, _, hbounds, hissued⟩ := render_cases hsound frame
  refine ⟨?_, fun data _ _ lists htotals hlists before list later hsplit command hmem hdraw =>
    offsets_in_range htotals hlists hsplit hmem hdraw, ?_⟩
  · rw [hrender]
    exact hbounds
  · rw [hrender]
    exact hissued

end Nexus.Imgui
