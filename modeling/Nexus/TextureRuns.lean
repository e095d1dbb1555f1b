import Nexus.TextureRecords
import Nexus.TextureService

namespace Nexus.Textures

open StepRuns

variable {world next : World}

theorem beginLoad_state (identifier : String) (source : Option TextureSource)
    (options : LoadOptions) (hasCallback attachJoinedCallback : Bool) (world : World) :
    Preserves world.state
      (beginLoad identifier source options hasCallback attachJoinedCallback world).state := by
  unfold beginLoad
  split
  · exact .refl _
  dsimp only
  have h := reserveRequest_preserves world.config.maxCallbacksPerTexture identifier options
    (if hasCallback then some world.calls.length else none) attachJoinedCallback world.state
  split <;> rename_i hreserved <;> rw [hreserved] at h
  · exact h
  · exact h
  · split <;> exact h
  · exact h

theorem queueResolved_state (call : Nat) (identifier : String) (requestId : Nat)
    (source : ResolvedSource) (world : World) :
    (queueResolved call identifier requestId world source).state = world.state := by
  cases source <;> unfold queueResolved <;> dsimp only <;> split <;> rfl

theorem upload_state (call : Nat) (identifier : String) (requestId : Nat)
    (result : Except TextureError DecodedImage) (remaining : Nat) (gpu : Option Nat)
    (world : World) :
    (upload call identifier requestId result remaining gpu world).state = world.state := by
  unfold upload
  split
  · rfl
  split
  · rfl
  split <;> rfl

theorem finishDecode_state (call : Nat) (identifier : String) (requestId : Nat)
    (result : Except TextureError TextureHandle) (remaining : Nat) (world : World) :
    (finishDecode call identifier requestId result remaining world).state =
      (registerResult identifier requestId result world.state).2 := by
  unfold finishDecode
  split <;> rename_i h <;> rw [h] <;> rfl

theorem resume_state {call : Nat} {answers : Answers} {activation : Activation}
    (h : resume call answers world activation = some next) : Preserves world.state next.state := by
  cases activation with
  | notifying =>
    cases h
    unfold notify
    split <;> exact .refl _
  | resolving | sweeping =>
    cases h
    exact .refl _
  | unwound | returned => cases h
  | queueing =>
    cases h
    rw [queueResolved_state]
    exact .refl _
  | failing =>
    cases h
    exact failPending_preserves ..
  | advancing =>
    cases h
    unfold popCompletion
    split <;> exact .refl _
  | finishing =>
    cases h
    unfold checkPending
    split <;> exact .refl _
  | uploading =>
    cases h
    rw [upload_state]
    exact .refl _
  | registering =>
    cases h
    rw [finishDecode_state]
    exact registerResult_preserves ..
  | dispatching _ callbacks =>
    cases h
    cases callbacks <;> exact .refl _

theorem pushWait_state {identifier : String} {requestId : Nat}
    {result : Except TextureError DecodedImage}
    (h : pushWait identifier requestId result world = some next) : next.state = world.state := by
  unfold pushWait at h
  split at h
  · cases h
    rfl
  · cases h

theorem decodeStep_state {file : Option (List UInt8)} {decoded : Option DecodedImage}
    (h : decodeStep file decoded world = some next) : next.state = world.state := by
  unfold decodeStep at h
  split at h
  · split at h <;> cases h
    rfl
  · cases h
    rfl
  · have hstate := pushWait_state h
    exact hstate

theorem downloadStep_state {fetched : Option (List UInt8)} {decoded : Option DecodedImage}
    (h : downloadStep fetched decoded world = some next) : next.state = world.state := by
  unfold downloadStep at h
  split at h
  · split at h <;> cases h
    rfl
  · cases h
    rfl
  · have hstate := pushWait_state h
    exact hstate

theorem step_cleanup {owner : OwnerGeneration} {order : List String}
    (h : step world (.cleanup owner order) = some next) :
    order.Perm (abandoned (forgetOwner (.addon owner) world.state)) ∧
      beginCleanup owner order world = next := by
  have hstep : step world (.cleanup owner order) =
      if order.Perm (abandoned (forgetOwner (.addon owner) world.state)) then
        some (beginCleanup owner order world)
      else none := rfl
  rw [hstep] at h
  split at h
  next hperm => exact ⟨hperm, Option.some.inj h⟩
  next => cases h

theorem step_state {action : Action} (h : step world action = some next) :
    Preserves world.state next.state := by
  cases action with
  | load | loadWithSource =>
    cases h
    exact beginLoad_state ..
  | advance =>
    cases h
    exact .refl _
  | cleanup =>
    obtain ⟨_, rfl⟩ := step_cleanup h
    exact cleanupPending_preserves ..
  | resume =>
    obtain ⟨_, _, hresume⟩ := Option.bind_eq_some_iff.mp h
    exact resume_state hresume
  | decode =>
    rw [decodeStep_state h]
    exact .refl _
  | download =>
    rw [downloadStep_state h]
    exact .refl _

theorem run_preserves {actions : List Action} (h : runSteps step world actions = some next) :
    Preserves world.state next.state :=
  runSteps_invariant (P := fun later => Preserves world.state later.state)
    (fun _ _ _ hstep hkept => hkept.trans (step_state hstep)) h (.refl _)

theorem separate_new (config : TextureConfig) : Separate (World.new config).state := by
  intro identifier texture h
  cases h

/-- In every run no identifier has a texture and a request at once, and every texture that the
registry had at some moment is in the registry at every later one. -/
theorem textures_stay_reachable {config : TextureConfig} {earlier later : List Action}
    (hearlier : runSteps step (World.new config) earlier = some world)
    (hlater : runSteps step world later = some next) :
    Separate world.state ∧ ∀ identifier texture,
      world.state.registry.get? identifier = some texture →
        ∃ other, next.state.registry.get? other = some texture := by
  have hseparate := (run_preserves hearlier).separate (separate_new config)
  exact ⟨hseparate, (run_preserves hlater).keeps hseparate⟩

def smallConfig : TextureConfig where
  maxIdentifierBytes := 16
  maxUrlBytes := 16
  maxEncodedBytes := 16
  maxWidth := 4
  maxHeight := 4
  maxPixels := 16
  workQueueCapacity := 2
  downloadQueueCapacity := 2
  completionQueueCapacity := 2
  maxCallbacksPerTexture := 2
  maxCompletionsPerAdvance := 2

def pixel : DecodedImage := ⟨1, 1, [0, 0, 0, 0]⟩

def answers : Answers := ⟨some none, none, none, some 7⟩

def loadedRun : List Action :=
  [.load "a" (.memory [1]) ⟨.addon ⟨1, 1⟩, false⟩ true, .resume 0 answers, .resume 0 answers,
    .decode none (some pixel), .decode none (some pixel), .decode none (some pixel), .advance,
    .resume 1 answers, .resume 1 answers, .resume 1 answers, .resume 1 answers, .resume 1 answers,
    .resume 1 answers, .resume 1 answers]

/-- A second load shadows the loaded texture and fails. -/
def shadowedRun : List Action :=
  [.load "a" (.memory []) ⟨.host, true⟩ false, .resume 2 answers, .resume 2 answers]

def loadedTexture : TextureHandle := ⟨0, 1, 1, 7⟩

theorem shadowed_texture_reachable : ∃ world next,
    runSteps step (World.new smallConfig) loadedRun = some world ∧
      runSteps step world shadowedRun = some next ∧
      world.state.registry.get? "a" = some loadedTexture ∧
      ∃ other, next.state.registry.get? other = some loadedTexture := by
  have hloaded : (runSteps step (World.new smallConfig) loadedRun).map (fun world =>
      (world.state.registry.get? "a", (runSteps step world shadowedRun).isSome)) =
        some (some loadedTexture, true) := rfl
  obtain ⟨world, hworld, heq⟩ := Option.map_eq_some_iff.mp hloaded
  obtain ⟨next, hnext⟩ := Option.isSome_iff_exists.mp (Prod.mk.inj heq).2
  exact ⟨world, next, hworld, hnext, (Prod.mk.inj heq).1,
    (textures_stay_reachable hworld hnext).2 _ _ (Prod.mk.inj heq).1⟩

end Nexus.Textures
