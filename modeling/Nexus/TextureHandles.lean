import Nexus.TextureMoves

namespace Nexus.Textures

def Outcome.textures : Outcome → List TextureHandle
  | .loaded (.ok (.cached texture)) => [texture]
  | _ => []

def Continuation.textures : Continuation → List TextureHandle
  | .leave outcome => outcome.textures
  | .advance _ => []

def TextureCallbackEvent.textures (event : TextureCallbackEvent) : List TextureHandle :=
  match event.result with
  | .ok texture => [texture]
  | .error _ => []

def Activation.textures : Activation → List TextureHandle
  | .notifying _ _ texture _ => [texture]
  | .failing _ _ _ _ outcome => outcome.textures
  | .dispatching event _ next => event.textures ++ next.textures
  | .returned outcome => outcome.textures
  | _ => []

def Completion.textures : Completion → List TextureHandle
  | .callback _ event _ => event.textures
  | .decoded .. => []

/-- The identifier and the handle that a call is about to pass to a callback. -/
def Activation.delivered : Activation → Option (String × TextureHandle)
  | .dispatching ⟨identifier, .ok texture⟩ (_ :: _) _ => some (identifier, texture)
  | _ => none

def World.delivered (world : World) (call : Nat) : Option (String × TextureHandle) :=
  world.calls[call]?.bind Activation.delivered

def World.Holds (world : World) (texture : TextureHandle) : Prop :=
  (∃ activation ∈ world.calls, texture ∈ activation.textures) ∨
    ∃ completion ∈ world.completions, texture ∈ completion.textures

def InRegistry (state : RegistryState) (texture : TextureHandle) : Prop :=
  ∃ identifier, state.registry.get? identifier = some texture

/-- A handle that somebody has in hand after a step was in somebody's hand before it or is in the
registry. -/
def Passes (world next : World) : Prop :=
  ∀ texture, next.Holds texture → world.Holds texture ∨ InRegistry next.state texture

variable {world next middle : World} {call : Nat} {activation : Activation}
  {texture : TextureHandle}

theorem holds_of_call (h : world.calls[call]? = some activation)
    (htexture : texture ∈ activation.textures) : world.Holds texture :=
  Or.inl ⟨activation, List.mem_of_getElem? h, htexture⟩

theorem passes_begin (hcalls : middle.calls = world.calls)
    (hcompletions : middle.completions = world.completions)
    (h : ∀ texture ∈ activation.textures, InRegistry middle.state texture) :
    Passes world (middle.begin activation) := by
  rintro texture (⟨found, hfound, htexture⟩ | ⟨completion, hcompletion, htexture⟩)
  · rcases List.mem_append.mp hfound with hold | hnew
    · rw [hcalls] at hold
      exact Or.inl (Or.inl ⟨found, hold, htexture⟩)
    · rw [List.mem_singleton.mp hnew] at htexture
      exact Or.inr (h texture htexture)
  · have hcompletion : completion ∈ middle.completions := hcompletion
    rw [hcompletions] at hcompletion
    exact Or.inl (Or.inr ⟨completion, hcompletion, htexture⟩)

theorem passes_goOn (hcalls : middle.calls = world.calls)
    (hcompletions : ∀ completion ∈ middle.completions, ∀ texture ∈ completion.textures,
      world.Holds texture)
    (h : ∀ texture ∈ activation.textures, world.Holds texture ∨ InRegistry middle.state texture) :
    Passes world (middle.goOn call activation) := by
  rintro texture (⟨found, hfound, htexture⟩ | ⟨completion, hcompletion, htexture⟩)
  · rcases List.mem_or_eq_of_mem_set hfound with hold | rfl
    · rw [hcalls] at hold
      exact Or.inl (Or.inl ⟨found, hold, htexture⟩)
    · exact h texture htexture
  · exact Or.inl (hcompletions completion hcompletion texture htexture)

theorem holds_completions {completion : Completion} (h : completion ∈ world.completions) :
    ∀ texture ∈ completion.textures, world.Holds texture :=
  fun _ htexture => Or.inr ⟨completion, h, htexture⟩

theorem passes_quiet (h : activation.textures = []) :
    Passes world (world.goOn call activation) := by
  refine passes_goOn rfl (fun _ hcompletion => holds_completions hcompletion) ?_
  rw [h]
  nofun

variable {identifier : String}

theorem reserveRequest_cached {maximumCallbacks : Nat} {options : LoadOptions}
    {callback : Option Nat} {attachJoinedCallback : Bool} {state after : RegistryState}
    (h : reserveRequest maximumCallbacks identifier options callback attachJoinedCallback state =
      (.ok (.cached texture), after)) : after.registry.get? identifier = some texture := by
  unfold reserveRequest at h
  dsimp only at h
  split at h
  · generalize (if attachJoinedCallback = true then _ else none) = registration at h
    split at h
    · cases (Prod.mk.inj h).1
    · cases (Prod.mk.inj h).1
  · split at h
    · cases (Prod.mk.inj h).1
    · split at h
      next hget =>
        obtain ⟨heq, rfl⟩ := Prod.mk.inj h
        cases heq
        exact hget
      next => cases (Prod.mk.inj h).1

theorem beginLoad_passes (identifier : String) (source : Option TextureSource)
    (options : LoadOptions) (hasCallback attachJoinedCallback : Bool) (world : World) :
    Passes world
      (beginLoad identifier source options hasCallback attachJoinedCallback world) := by
  unfold beginLoad
  split
  · exact passes_begin rfl rfl nofun
  dsimp only
  split
  next => exact passes_begin rfl rfl nofun
  next => exact passes_begin rfl rfl nofun
  next hreserved =>
    have hget := reserveRequest_cached hreserved
    split
    · refine passes_begin rfl rfl fun found hfound => ?_
      rw [List.mem_singleton.mp hfound]
      exact ⟨identifier, hget⟩
    · refine passes_begin rfl rfl fun found hfound => ?_
      rw [List.mem_singleton.mp hfound]
      exact ⟨identifier, hget⟩
  next => exact passes_begin rfl rfl nofun

theorem notify_passes {owner : RequestOwner} {callback : Nat}
    (hcall : world.calls[call]? = some (.notifying owner identifier texture callback)) :
    Passes world (notify call owner identifier texture callback world) := by
  have htexture : world.Holds texture := holds_of_call hcall (by simp [Activation.textures])
  unfold notify
  split
  · refine passes_goOn rfl (fun completion hcompletion => ?_) fun found hfound => ?_
    · rcases List.mem_append.mp hcompletion with hold | hnew
      · exact holds_completions hold
      · rw [List.mem_singleton.mp hnew]
        intro found hfound
        rw [List.mem_singleton.mp hfound]
        exact htexture
    · rw [List.mem_singleton.mp hfound]
      exact Or.inl htexture
  · exact passes_quiet rfl

theorem acquired_textures (config : TextureConfig) (identifier : String) (requestId : Nat)
    (png : Option (List UInt8)) (source : TextureSource) :
    (acquired config identifier requestId png source).textures = [] := by
  unfold acquired
  split <;> rfl

theorem resolve_textures (config : TextureConfig) (identifier : String) (requestId : Nat)
    (primary : Option Nat) (source : Option TextureSource) (answers : Answers) :
    (resolve config identifier requestId primary source answers).textures = [] := by
  unfold resolve
  split
  · rfl
  · rfl
  split
  · exact acquired_textures ..
  split
  · rfl
  · rfl
  · exact acquired_textures ..

theorem queueResolved_passes (identifier : String) (requestId : Nat) (source : ResolvedSource) :
    Passes world (queueResolved call identifier requestId world source) := by
  cases source with
  | decode | download =>
    unfold queueResolved
    dsimp only
    split
    · exact passes_goOn rfl (fun _ hcompletion => holds_completions hcompletion) nofun
    · exact passes_quiet rfl

theorem failReserved_passes {requestId : Nat} {error : TextureError} {excluded : Option Nat}
    {outcome : Outcome}
    (hcall : world.calls[call]? = some (.failing identifier requestId error excluded outcome)) :
    Passes world (failReserved call identifier requestId error excluded outcome world) :=
  passes_goOn rfl (fun _ hcompletion => holds_completions hcompletion) fun _ htexture =>
    Or.inl (holds_of_call hcall htexture)

theorem popCompletion_passes (remaining : Nat) :
    Passes world (popCompletion call remaining world) := by
  unfold popCompletion
  split
  next completion _ hcompletions =>
    refine passes_goOn rfl (fun found hfound => ?_) fun texture htexture => ?_
    · exact holds_completions (by rw [hcompletions]; exact List.mem_cons_of_mem _ hfound)
    · have hheld : completion ∈ world.completions := by simp [hcompletions]
      refine Or.inl (holds_completions hheld _ ?_)
      cases completion with
      | decoded => cases htexture
      | callback => simpa [Completion.activation, Activation.textures,
          Continuation.textures, Completion.textures] using htexture
  next => exact passes_quiet rfl

theorem checkPending_passes (identifier : String) (requestId : Nat)
    (result : Except TextureError DecodedImage) (remaining : Nat) :
    Passes world (checkPending call identifier requestId result remaining world) := by
  unfold checkPending
  split
  · exact passes_goOn rfl (fun _ hcompletion => holds_completions hcompletion) nofun
  · exact passes_quiet rfl

theorem upload_passes (identifier : String) (requestId : Nat)
    (result : Except TextureError DecodedImage) (remaining : Nat) (gpu : Option Nat) :
    Passes world (upload call identifier requestId result remaining gpu world) := by
  unfold upload
  split
  · exact passes_quiet rfl
  split
  · exact passes_quiet rfl
  split
  · exact passes_goOn rfl (fun _ hcompletion => holds_completions hcompletion) nofun
  · exact passes_goOn rfl (fun _ hcompletion => holds_completions hcompletion) nofun

theorem finishDecode_passes (identifier : String) (requestId : Nat)
    (result : Except TextureError TextureHandle) (remaining : Nat) :
    Passes world (finishDecode call identifier requestId result remaining world) := by
  unfold finishDecode registerResult
  rcases htake : takePending identifier requestId world.state with _ | ⟨_, state⟩
  · exact passes_goOn rfl (fun _ hcompletion => holds_completions hcompletion) nofun
  · cases result with
    | error =>
      exact passes_goOn rfl (fun _ hcompletion => holds_completions hcompletion) nofun
    | ok =>
      refine passes_goOn rfl (fun _ hcompletion => holds_completions hcompletion) ?_
      intro found hfound
      rw [List.mem_singleton.mp hfound]
      exact Or.inr ⟨identifier, SortedMap.get?_put_self _ _ _⟩

theorem dispatch_passes {event : TextureCallbackEvent} {callbacks : List (RequestOwner × Nat)}
    {continuation : Continuation} (hcall : world.calls[call]? = some
      (.dispatching event callbacks continuation)) :
    Passes world (dispatch call event continuation world callbacks) := by
  have hheld : ∀ texture ∈ event.textures ++ continuation.textures, world.Holds texture :=
    fun _ htexture => holds_of_call hcall htexture
  cases callbacks with
  | nil =>
    refine passes_goOn rfl (fun _ hcompletion => holds_completions hcompletion) ?_
    intro texture htexture
    refine Or.inl (hheld texture (List.mem_append_right _ ?_))
    cases continuation with
    | leave => exact htexture
    | advance => cases htexture
  | cons =>
    exact passes_goOn rfl (fun _ hcompletion => holds_completions hcompletion)
      fun texture htexture => Or.inl (hheld texture htexture)

theorem sweep_passes (owner : OwnerGeneration) (removed : Nat) :
    Passes world (sweep call owner removed world) :=
  passes_goOn rfl (fun _ hcompletion => holds_completions (List.mem_of_mem_filter hcompletion)) nofun

theorem resume_passes {answers : Answers} (hcall : world.calls[call]? = some activation)
    (h : resume call answers world activation = some next) : Passes world next := by
  cases activation with
  | notifying =>
    cases h
    exact notify_passes hcall
  | resolving =>
    cases h
    exact passes_quiet (resolve_textures ..)
  | unwound | returned => cases h
  | queueing =>
    cases h
    exact queueResolved_passes _ _ _
  | failing =>
    cases h
    exact failReserved_passes hcall
  | advancing remaining =>
    cases h
    exact popCompletion_passes remaining
  | finishing =>
    cases h
    exact checkPending_passes _ _ _ _
  | uploading =>
    cases h
    exact upload_passes _ _ _ _ _
  | registering =>
    cases h
    exact finishDecode_passes _ _ _ _
  | dispatching =>
    cases h
    exact dispatch_passes hcall
  | sweeping =>
    cases h
    exact sweep_passes _ _

theorem passes_worker (hcalls : next.calls = world.calls)
    (hcompletions : next.completions = world.completions ∨
      ∃ identifier requestId result, next.completions =
        world.completions ++ [.decoded identifier requestId result]) : Passes world next := by
  rintro texture (⟨found, hfound, htexture⟩ | ⟨completion, hcompletion, htexture⟩)
  · rw [hcalls] at hfound
    exact Or.inl (Or.inl ⟨found, hfound, htexture⟩)
  · rcases hcompletions with hsame | ⟨_, _, _, hpushed⟩
    · rw [hsame] at hcompletion
      exact Or.inl (holds_completions hcompletion texture htexture)
    · rw [hpushed] at hcompletion
      rcases List.mem_append.mp hcompletion with hold | hnew
      · exact Or.inl (holds_completions hold texture htexture)
      · rw [List.mem_singleton.mp hnew] at htexture
        cases htexture

theorem decodeStep_passes {file : Option (List UInt8)} {decoded : Option DecodedImage}
    (h : decodeStep file decoded world = some next) : Passes world next := by
  unfold decodeStep at h
  split at h
  · split at h
    · cases h
    · cases h
      exact passes_worker rfl (Or.inl rfl)
  · cases h
    exact passes_worker rfl (Or.inl rfl)
  · rw [pushWait_cases h]
    exact passes_worker rfl (Or.inr ⟨_, _, _, rfl⟩)

theorem downloadStep_passes {fetched : Option (List UInt8)} {decoded : Option DecodedImage}
    (h : downloadStep fetched decoded world = some next) : Passes world next := by
  unfold downloadStep at h
  split at h
  · split at h
    · cases h
    · cases h
      exact passes_worker rfl (Or.inl rfl)
  · cases h
    exact passes_worker rfl (Or.inl rfl)
  · rw [pushWait_cases h]
    exact passes_worker rfl (Or.inr ⟨_, _, _, rfl⟩)

variable {action : Action}

theorem step_passes (h : step world action = some next) : Passes world next := by
  cases action with
  | load | loadWithSource =>
    cases h
    exact beginLoad_passes _ _ _ _ _ _
  | advance =>
    cases h
    exact passes_begin rfl rfl nofun
  | cleanup =>
    obtain ⟨_, rfl⟩ := step_cleanup h
    exact passes_begin rfl rfl nofun
  | resume =>
    obtain ⟨_, hcall, hresume⟩ := Option.bind_eq_some_iff.mp h
    exact resume_passes hcall hresume
  | decode => exact decodeStep_passes h
  | download => exact downloadStep_passes h

structure Backed (world : World) : Prop where
  separate : Separate world.state
  backed : ∀ texture, world.Holds texture → InRegistry world.state texture

theorem Backed.inRegistry_step (hbacked : Backed world) (h : step world action = some next)
    (htexture : InRegistry world.state texture) : InRegistry next.state texture := by
  obtain ⟨identifier, hget⟩ := htexture
  exact (step_state h).keeps hbacked.separate identifier texture hget

theorem Backed.step (hbacked : Backed world) (h : step world action = some next) : Backed next where
  separate := (step_state h).separate hbacked.separate
  backed texture hholds := by
    rcases step_passes h texture hholds with hheld | hregistry
    · exact hbacked.inRegistry_step h (hbacked.backed texture hheld)
    · exact hregistry

theorem Backed.delivered (hbacked : Backed world) {identifier : String} {texture : TextureHandle}
    (h : world.delivered call = some (identifier, texture)) : InRegistry world.state texture := by
  obtain ⟨_, hcall, hdelivered⟩ := Option.bind_eq_some_iff.mp h
  refine hbacked.backed texture (holds_of_call hcall ?_)
  unfold Activation.delivered at hdelivered
  split at hdelivered
  · cases hdelivered
    simp [Activation.textures, TextureCallbackEvent.textures]
  · cases hdelivered

end Nexus.Textures
