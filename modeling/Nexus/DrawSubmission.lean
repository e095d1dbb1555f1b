import Mathlib.Data.UInt
import Nexus.Fallible

namespace Nexus.Imgui

open Fallible

/-- `device` is what a call of Direct3D, or the guard of its state, failed with. -/
inductive RendererError (δ : Type) where
  | nullPointer (name : String)
  | invalidDrawData
  | drawDataOverflow
  | staleGeneration
  | invalidFramebuffer
  | device (error : δ)

/-- A copy behind the end of a mapped buffer is no error of the code but undefined. -/
inductive Stop (δ : Type) where
  | error (error : RendererError δ)
  | outOfBounds

variable {δ ν α : Type}

structure ImVec2 where
  x : Float32
  y : Float32

structure ImVec4 where
  x : Float32
  y : Float32
  z : Float32
  w : Float32

/-- `data` is `none` for a null pointer. -/
structure ImVector (α : Type) where
  size : Int32
  data : Option (Nat → α)

structure ImDrawCmd where
  clipRect : ImVec4
  textureId : UInt64
  vtxOffset : UInt32
  idxOffset : UInt32
  elemCount : UInt32
  userCallback : Option UInt64

structure ImDrawList (ν : Type) where
  cmdBuffer : ImVector ImDrawCmd
  idxBuffer : ImVector UInt16
  vtxBuffer : ImVector ν

structure ImDrawData (ν : Type) where
  valid : Bool
  cmdListsCount : Int32
  totalIdxCount : Int32
  totalVtxCount : Int32
  cmdLists : Option (Nat → Option (ImDrawList ν))
  displayPos : ImVec2
  displaySize : ImVec2
  framebufferScale : ImVec2

structure FrameGeometry where
  displayPos : ImVec2
  displaySize : ImVec2
  framebufferScale : ImVec2
  framebufferSize : UInt32 × UInt32

def floatToU32Ceil (value : Float32) : Except (RendererError δ) UInt32 :=
  if value ≥ 4294967296.0 then .error .drawDataOverflow else .ok value.ceil.toUInt32

def floatToI32 (value : Float32) : Except (RendererError δ) Int32 :=
  if value < -2147483648.0 ∨ value ≥ 2147483648.0 then .error .drawDataOverflow
  else .ok value.toInt32

def validateGeometry (data : ImDrawData ν) : Except (RendererError δ) FrameGeometry :=
  let pos := data.displayPos
  let size := data.displaySize
  let scale := data.framebufferScale
  let width := size.x * scale.x
  let height := size.y * scale.y
  if ¬ (pos.x.isFinite ∧ pos.y.isFinite) ∨
      ¬ (size.x.isFinite ∧ size.y.isFinite) ∨ size.x < 0.0 ∨ size.y < 0.0 ∨
      ¬ (scale.x.isFinite ∧ scale.y.isFinite) ∨ scale.x ≤ 0.0 ∨ scale.y ≤ 0.0 then
    .error .invalidFramebuffer
  else if ¬ width.isFinite ∨ ¬ height.isFinite ∨ width ≤ 0.0 ∨ height ≤ 0.0 then
    .error .invalidFramebuffer
  else do
    let width ← floatToU32Ceil width
    let height ← floatToU32Ceil height
    return ⟨pos, size, scale, width, height⟩

/-- `usize::try_from`. -/
def toUsize (number : Int32) (error : RendererError δ) : Except (RendererError δ) Nat :=
  if 0 ≤ number.toInt then .ok number.toInt.toNat else .error error

def checkedAdd (first second : Nat) : Except (RendererError δ) Nat :=
  if first + second < 2 ^ 64 then .ok (first + second) else .error .drawDataOverflow

def validateTotals (data : ImDrawData ν) : Except (RendererError δ) (Nat × Nat) :=
  if ¬ data.valid ∨ data.cmdListsCount < 0 ∨ data.totalVtxCount < 0 ∨ data.totalIdxCount < 0 ∨
      (0 < data.cmdListsCount ∧ data.cmdLists.isNone) then .error .invalidDrawData
  else do
    let vertices ← toUsize data.totalVtxCount .drawDataOverflow
    let indices ← toUsize data.totalIdxCount .drawDataOverflow
    return (vertices, indices)

def checkedSlice (elementSize : Nat) (pointer : Option (Nat → α)) (length : Nat) :
    Except (RendererError δ) (List α) :=
  if length = 0 then .ok []
  else match pointer with
    | none => .error .invalidDrawData
    | some elements =>
      if (2 ^ 63 - 1) / max elementSize 1 < length then .error .invalidDrawData
      else .ok ((List.range length).map elements)

structure DrawListView (ν : Type) where
  raw : ImDrawList ν
  vertices : List ν
  indices : List UInt16
  commands : List ImDrawCmd

def checkCommand (vertexCount indexCount : Nat) (command : ImDrawCmd) :
    Except (RendererError δ) Unit :=
  if command.userCallback.isNone then do
    let last ← checkedAdd command.idxOffset.toNat command.elemCount.toNat
    if indexCount < last ∨ vertexCount < command.vtxOffset.toNat then .error .invalidDrawData
    else return ()
  else return ()

def viewList (pointer : Option (ImDrawList ν)) : Except (RendererError δ) (DrawListView ν) :=
  match pointer with
  | none => .error .invalidDrawData
  | some list => do
    let vertexCount ← toUsize list.vtxBuffer.size .invalidDrawData
    let indexCount ← toUsize list.idxBuffer.size .invalidDrawData
    let commandCount ← toUsize list.cmdBuffer.size .invalidDrawData
    let vertices ← checkedSlice 20 list.vtxBuffer.data vertexCount
    let indices ← checkedSlice 2 list.idxBuffer.data indexCount
    let commands ← checkedSlice 56 list.cmdBuffer.data commandCount
    commands.forM (checkCommand vertexCount indexCount)
    return ⟨list, vertices, indices, commands⟩

/-- The loop, with the totals so far. -/
def collectFrom : List (Option (ImDrawList ν)) → Nat → Nat →
    Except (RendererError δ) (List (DrawListView ν) × Nat × Nat)
  | [], totalVertices, totalIndices => .ok ([], totalVertices, totalIndices)
  | pointer :: pointers, totalVertices, totalIndices => do
    let list ← viewList pointer
    let totalVertices ← checkedAdd totalVertices list.vertices.length
    let totalIndices ← checkedAdd totalIndices list.indices.length
    let (lists, totals) ← collectFrom pointers totalVertices totalIndices
    return (list :: lists, totals)

def collectDrawLists (data : ImDrawData ν) (expectedVertices expectedIndices : Nat) :
    Except (RendererError δ) (List (DrawListView ν)) := do
  let listCount ← toUsize data.cmdListsCount .invalidDrawData
  let pointers ← checkedSlice 8 data.cmdLists listCount
  let (lists, totalVertices, totalIndices) ← collectFrom pointers 0 0
  if totalVertices ≠ expectedVertices ∨ totalIndices ≠ expectedIndices then .error .invalidDrawData
  else return lists

inductive CommandKind where
  | draw
  | resetState
  | callback

structure TranslatedCommand where
  kind : CommandKind
  elementCount : UInt32
  startIndex : Nat
  baseVertex : Nat
  scissor : Int32 × Int32 × Int32 × Int32
  texture : UInt64

def RESET_RENDER_STATE_CALLBACK : UInt64 := 2 ^ 64 - 1

def clipRect (geometry : FrameGeometry) (rect : ImVec4) : ImVec4 :=
  ⟨(rect.x - geometry.displayPos.x) * geometry.framebufferScale.x,
    (rect.y - geometry.displayPos.y) * geometry.framebufferScale.y,
    (rect.z - geometry.displayPos.x) * geometry.framebufferScale.x,
    (rect.w - geometry.displayPos.y) * geometry.framebufferScale.y⟩

def ImVec4.isFinite (rect : ImVec4) : Bool :=
  rect.x.isFinite && rect.y.isFinite && rect.z.isFinite && rect.w.isFinite

def scissorRect (geometry : FrameGeometry) (rect : ImVec4) : Option ImVec4 :=
  let left := (max rect.x 0.0).floor
  let top := (max rect.y 0.0).floor
  let right := (min rect.z geometry.framebufferSize.1.toFloat32).ceil
  let bottom := (min rect.w geometry.framebufferSize.2.toFloat32).ceil
  if right ≤ left ∨ bottom ≤ top then none else some ⟨left, top, right, bottom⟩

def checkedOffset (bits : Nat) (base : Nat) (offset : UInt32) : Except (RendererError δ) Nat := do
  let value ← checkedAdd base offset.toNat
  if value < 2 ^ bits then return value else .error .drawDataOverflow

def translateCommand (command : ImDrawCmd) (geometry : FrameGeometry)
    (globalVertexOffset globalIndexOffset : Nat) :
    Except (RendererError δ) (Option TranslatedCommand) :=
  match command.userCallback with
  | some address =>
    let kind := if address = RESET_RENDER_STATE_CALLBACK then .resetState else .callback
    .ok (some ⟨kind, 0, 0, 0, (0, 0, 0, 0), command.textureId⟩)
  | none =>
    let rect := clipRect geometry command.clipRect
    if ¬ rect.isFinite then .error .invalidDrawData
    else match scissorRect geometry rect with
      | none => .ok none
      | some rect => do
        let startIndex ← checkedOffset 32 globalIndexOffset command.idxOffset
        let baseVertex ← checkedOffset 31 globalVertexOffset command.vtxOffset
        let left ← floatToI32 rect.x
        let top ← floatToI32 rect.y
        let right ← floatToI32 rect.z
        let bottom ← floatToI32 rect.w
        return some ⟨.draw, command.elemCount, startIndex, baseVertex, (left, top, right, bottom),
          command.textureId⟩

inductive GpuEvent (ν : Type) where
  | setupRenderState
  | callback (list : ImDrawList ν) (command : ImDrawCmd)
  | draw (command : TranslatedCommand)

structure RenderStats where
  drawCalls : Nat
  elements : Nat
  userCallbacks : Nat
  resetStateCallbacks : Nat

abbrev Submission (ν δ α : Type) := Fallible (List (GpuEvent ν)) (Stop δ) α

def emit (event : GpuEvent ν) : Submission ν δ Unit := modify fun events => events ++ [event]

/-- `checked_add` of a statistic. -/
def count (bits value more : Nat) : Submission ν δ Nat :=
  if value + more < 2 ^ bits then pure (value + more) else fail (.error .drawDataOverflow)

def submitCommand (list : DrawListView ν) (command : ImDrawCmd) (translated : TranslatedCommand)
    (stats : RenderStats) : Submission ν δ RenderStats :=
  match translated.kind with
  | .resetState => do
    emit .setupRenderState
    let resetStateCallbacks ← count 32 stats.resetStateCallbacks 1
    return { stats with resetStateCallbacks }
  | .callback =>
    match command.userCallback with
    | none => fail (.error .invalidDrawData)
    | some _ => do
      emit (.callback list.raw command)
      let userCallbacks ← count 32 stats.userCallbacks 1
      return { stats with userCallbacks }
  | .draw => do
    emit (.draw translated)
    let drawCalls ← count 32 stats.drawCalls 1
    let elements ← count 64 stats.elements translated.elementCount.toNat
    return { stats with drawCalls, elements }

def submitCommands (geometry : FrameGeometry) (list : DrawListView ν)
    (vertexOffset indexOffset : Nat) : List ImDrawCmd → RenderStats → Submission ν δ RenderStats
  | [], stats => pure stats
  | command :: commands, stats => do
    match ← ofExcept .error (translateCommand command geometry vertexOffset indexOffset) with
    | none => submitCommands geometry list vertexOffset indexOffset commands stats
    | some translated =>
      let stats ← submitCommand list command translated stats
      submitCommands geometry list vertexOffset indexOffset commands stats

def submitLists (geometry : FrameGeometry) :
    List (DrawListView ν) → Nat → Nat → RenderStats → Submission ν δ RenderStats
  | [], _, _, stats => pure stats
  | list :: lists, vertexOffset, indexOffset, stats => do
    let stats ← submitCommands geometry list vertexOffset indexOffset list.commands stats
    let vertexOffset ← ofExcept .error (checkedAdd vertexOffset list.vertices.length)
    let indexOffset ← ofExcept .error (checkedAdd indexOffset list.indices.length)
    submitLists geometry lists vertexOffset indexOffset stats

def submitDraws (geometry : FrameGeometry) (lists : List (DrawListView ν)) :
    Submission ν δ RenderStats := do
  emit .setupRenderState
  submitLists geometry lists 0 0 ⟨0, 0, 0, 0⟩

/-- A dynamic buffer with room for `capacity` elements. Where it holds nothing defined, the contents
are `none`. -/
structure GpuBuffer (α : Type) where
  capacity : Nat
  contents : Nat → Option α

structure GpuRenderer (ν : Type) where
  vertexBuffer : GpuBuffer ν
  indexBuffer : GpuBuffer UInt16
  vertexCapacity : Nat
  indexCapacity : Nat
  generation : Nat
  resourceGeneration : Nat

structure FrameAnswers (δ : Type) where
  acquireBackBuffer : Except δ Unit
  createVertexBuffer : Except δ Unit
  createIndexBuffer : Except δ Unit
  mapVertexBuffer : Except δ Unit
  mapIndexBuffer : Except δ Unit
  mapConstantBuffer : Except δ Unit
  capture : Except δ Unit
  restore : Except δ Unit

abbrev Rendering (ν δ α : Type) := Fallible (GpuRenderer ν) (Stop δ) α

def answered (answer : Except δ Unit) : Rendering ν δ Unit :=
  ofExcept (fun error => .error (.device error)) answer

def createDynamicBuffer (answer : Except δ Unit) (capacity elementSize : Nat) :
    Rendering ν δ (GpuBuffer α) := do
  ensure (capacity * elementSize < 2 ^ 32) (.error .drawDataOverflow)
  answered answer
  return ⟨capacity, fun _ => none⟩

def bumpResourceGeneration : Rendering ν δ Unit := do
  let renderer ← read
  ensure (renderer.resourceGeneration + 1 < 2 ^ 64) (.error .drawDataOverflow)
  modify fun renderer => { renderer with resourceGeneration := renderer.resourceGeneration + 1 }

def INITIAL_VERTEX_CAPACITY : Nat := 5000

def INITIAL_INDEX_CAPACITY : Nat := 10000

def VERTEX_GROWTH_SLACK : Nat := 5000

def INDEX_GROWTH_SLACK : Nat := 10000

def ensureBuffer (answer : Except δ Unit) (count slack elementSize capacity : Nat)
    (store : GpuBuffer α → Nat → GpuRenderer ν → GpuRenderer ν) : Rendering ν δ Unit :=
  if capacity < count then do
    let grown ← ofExcept .error (checkedAdd count slack)
    let buffer ← createDynamicBuffer answer grown elementSize
    modify (store buffer grown)
    bumpResourceGeneration
  else pure ()

def ensureDynamicBuffers (answers : FrameAnswers δ) (vertexCount indexCount : Nat) :
    Rendering ν δ Unit := do
  let renderer ← read
  ensureBuffer answers.createVertexBuffer vertexCount VERTEX_GROWTH_SLACK 20 renderer.vertexCapacity
    fun vertexBuffer vertexCapacity renderer => { renderer with vertexBuffer, vertexCapacity }
  let renderer ← read
  ensureBuffer answers.createIndexBuffer indexCount INDEX_GROWTH_SLACK 2 renderer.indexCapacity
    fun indexBuffer indexCapacity renderer => { renderer with indexBuffer, indexCapacity }

def GpuBuffer.write (buffer : GpuBuffer α) (destination : Nat) (elements : List α) :
    GpuBuffer α where
  capacity := buffer.capacity
  contents place :=
    if destination ≤ place ∧ place < destination + elements.length then
      elements[place - destination]?
    else buffer.contents place

def copyLists : List (List α) → Nat → GpuBuffer α → Except (Stop δ) (GpuBuffer α)
  | [], _, buffer => .ok buffer
  | elements :: lists, destination, buffer =>
    if destination + elements.length ≤ buffer.capacity then
      copyLists lists (destination + elements.length) (buffer.write destination elements)
    else .error .outOfBounds

/-- `D3D11_MAP_WRITE_DISCARD` leaves nothing defined in the buffer. -/
def GpuBuffer.discard (buffer : GpuBuffer α) : GpuBuffer α :=
  { buffer with contents := fun _ => none }

def uploadLists (answer : Except δ Unit) (count : Nat) (lists : List (List α))
    (buffer : GpuBuffer α) (store : GpuBuffer α → GpuRenderer ν → GpuRenderer ν) :
    Rendering ν δ Unit :=
  if 0 < count then do
    answered answer
    let buffer ← ofExcept id (copyLists lists 0 buffer.discard)
    modify (store buffer)
  else pure ()

def uploadGeometry (answers : FrameAnswers δ) (lists : List (DrawListView ν))
    (vertexCount indexCount : Nat) : Rendering ν δ Unit := do
  let renderer ← read
  uploadLists answers.mapVertexBuffer vertexCount (lists.map DrawListView.vertices)
    renderer.vertexBuffer fun vertexBuffer renderer => { renderer with vertexBuffer }
  let renderer ← read
  uploadLists answers.mapIndexBuffer indexCount (lists.map DrawListView.indices)
    renderer.indexBuffer fun indexBuffer renderer => { renderer with indexBuffer }

structure RenderFrame (ν δ : Type) where
  drawData : Option (ImDrawData ν)
  generation : Nat
  answers : FrameAnswers δ

/-- `render` up to the guarded part. -/
def prepare (frame : RenderFrame ν δ) :
    Rendering ν δ (FrameGeometry × List (DrawListView ν)) := do
  let renderer ← read
  ensure (frame.generation = renderer.generation) (.error .staleGeneration)
  answered frame.answers.acquireBackBuffer
  let drawData ← require frame.drawData (.error (.nullPointer "draw-data"))
  let geometry ← ofExcept .error (validateGeometry drawData)
  let (vertexCount, indexCount) ← ofExcept .error (validateTotals drawData)
  let lists ← ofExcept .error (collectDrawLists drawData vertexCount indexCount)
  ensureDynamicBuffers frame.answers vertexCount indexCount
  uploadGeometry frame.answers lists vertexCount indexCount
  answered frame.answers.mapConstantBuffer
  return (geometry, lists)

/-- Nothing is restored, and nothing drawn, where the state could not be captured. -/
def guardedOperation (answers : FrameAnswers δ) (operation : Submission ν δ α) :
    Except (Stop δ) α × List (GpuEvent ν) :=
  match answers.capture with
  | .error error => (.error (.error (.device error)), [])
  | .ok () =>
    let (result, events) := operation []
    match answers.restore with
    | .error error => (.error (.error (.device error)), events)
    | .ok () => (result, events)

def render (frame : RenderFrame ν δ) (renderer : GpuRenderer ν) :
    Except (Stop δ) RenderStats × List (GpuEvent ν) × GpuRenderer ν :=
  match prepare frame renderer with
  | (.error error, after) => (.error error, [], after)
  | (.ok (geometry, lists), after) =>
    let (result, events) := guardedOperation frame.answers (submitDraws geometry lists)
    (result, events, after)

namespace GpuRenderer

def attach (generation : Nat) : GpuRenderer ν :=
  ⟨⟨INITIAL_VERTEX_CAPACITY, fun _ => none⟩, ⟨INITIAL_INDEX_CAPACITY, fun _ => none⟩,
    INITIAL_VERTEX_CAPACITY, INITIAL_INDEX_CAPACITY, generation, 1⟩

def rebuildFontTexture (answer : Except δ Unit) : Rendering ν δ Unit := do
  let renderer ← read
  ensure (renderer.resourceGeneration + 1 < 2 ^ 64) (.error .drawDataOverflow)
  answered answer
  bumpResourceGeneration

def synchronizeGeneration (generation : Nat) : Rendering ν δ Unit := do
  let renderer ← read
  ensure (renderer.generation ≤ generation) (.error .staleGeneration)
  if renderer.generation < generation then
    modify fun renderer => { renderer with generation }
    bumpResourceGeneration

def recreateBackBuffer (generation : Nat) (answer : Except δ Unit) : Rendering ν δ Unit := do
  let renderer ← read
  ensure (generation = renderer.generation) (.error .staleGeneration)
  answered answer
  bumpResourceGeneration

end GpuRenderer

inductive RendererCall (ν δ : Type) where
  | render (frame : RenderFrame ν δ)
  | rebuildFontTexture (answer : Except δ Unit)
  | synchronizeGeneration (generation : Nat)
  | recreateBackBuffer (generation : Nat) (answer : Except δ Unit)

def RendererCall.run (renderer : GpuRenderer ν) : RendererCall ν δ → GpuRenderer ν
  | .render frame => (Imgui.render frame renderer).2.2
  | .rebuildFontTexture answer => (GpuRenderer.rebuildFontTexture answer renderer).2
  | .synchronizeGeneration generation =>
    (GpuRenderer.synchronizeGeneration (δ := δ) generation renderer).2
  | .recreateBackBuffer generation answer =>
    (GpuRenderer.recreateBackBuffer generation answer renderer).2

end Nexus.Imgui
