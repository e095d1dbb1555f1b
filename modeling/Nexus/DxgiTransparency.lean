import Nexus.DxgiDetours

namespace Nexus.Dxgi

open Unwinding

variable {ρ : Type} {α : Type} {code : Code ρ α} {frame : Frame ρ}

theorem onProcess_returned_iff {u : Frame ρ} {a : α} :
    onProcess code frame = (.returned a, u) ↔
      ∃ process, code frame.process = (.returned a, process) ∧ u = { frame with process } := by
  rcases h : code frame.process with ⟨_, process⟩
  simp only [onProcess, zoom_apply, h, Prod.mk.injEq]
  constructor
  · rintro ⟨rfl, rfl⟩
    exact ⟨process, ⟨rfl, rfl⟩, rfl⟩
  · rintro ⟨_, ⟨rfl, rfl⟩, rfl⟩
    exact ⟨rfl, rfl⟩

theorem onProcess_of_unwound {payload : Payload} {process : Process ρ}
    (h : code frame.process = (.unwound payload, process)) :
    onProcess code frame = (.unwound payload, { frame with process }) := by
  simp [onProcess, h]

theorem onProcess_of_aborted {process : Process ρ} (h : code frame.process = (.aborted, process)) :
    onProcess code frame = (.aborted, { frame with process }) := by
  simp [onProcess, h]

/-- The gate of the manager lets a callback in: the manager is still owned and accepts. -/
def Process.admit (process : Process ρ) (weak : ManagerId) : Option (Process ρ) :=
  (process.upgrade weak).bind process.tryEnter

def Environment.forwarded (env : Environment ρ) (original : Address) (arguments : Arguments) :
    Code ρ Int32 := fun process =>
  (.returned (env.native original arguments process).1,
    (env.native original arguments process).2)

namespace Forwarding

variable (f : Forwarding ρ) (env : Environment ρ) (original : Address) (weak : ManagerId)

/-- The detour returns after exactly one native call, of the original with the arguments of
the caller, and answers what that call returned. -/
def Transparent (process : Process ρ) : Prop :=
  ∃ result frame, f.detour env (Frame.start process) = (.returned result, frame) ∧
    frame.calls = [⟨original, f.arguments, result⟩]

/-- Nothing that Nexus does around the call aborts, and a panic that leaves it is gone for
good: its payload drops quietly, and the report that follows it returns. So does the release of
the manager. -/
def Contained (process : Process ρ) : Prop :=
  match process.admit weak with
  | none => process.alive weak = true →
      Returns (env.release weak) (env.native original f.arguments process).2
  | some entered =>
    match f.before weak entered with
    | (.returned invocation, before) =>
      match f.after weak invocation (env.native original f.arguments before).1
          (env.native original f.arguments before).2 with
      | (.returned (), after) => Returns (env.release weak) (after.leave weak)
      | (.unwound payload, after) => payload = .quiet ∧
          Returns (do
            env.reportPanic weak f.boundary
            env.release weak) (after.leave weak)
      | (.aborted, _) => False
    | (.unwound payload, before) => payload = .quiet ∧
        Returns (do
          env.reportPanic weak f.boundary
          let _ ← env.forwarded original f.arguments
          env.release weak) (before.leave weak)
    | (.aborted, _) => False

variable {f env original weak} {u : Frame ρ}

theorem releaseManager_returned_iff {frame : Frame ρ} :
    releaseManager env frame = (.returned (), u) ↔
      match frame.manager with
      | none => u = frame
      | some manager => ∃ process, env.release manager frame.process = (.returned (), process) ∧
          u = { frame with process } := by
  unfold releaseManager
  rw [bind_of_returned (read_apply frame)]
  rcases hm : frame.manager with _ | manager
  · simp [eq_comm]
  · simp only [onProcess_returned_iff, hm]

variable {start t : Frame ρ} {value : Int32}

theorem detour_of_returned (hguarded : f.guarded env start = (.returned (), t))
    (hresult : t.result = some value) {result : Int32} :
    f.detour env start = (.returned result, u) ↔
      result = value ∧ releaseManager env t = (.returned (), u) := by
  have hcaught : catchUnwind (f.guarded env) start = (.returned (.ok ()), t) := by
    simp [catchUnwind, hguarded]
  have hreport : f.reportCaught env (.ok ()) t = (.returned (), t) := by
    simp [reportCaught, bind_of_returned (read_apply t)]
  have hfinish : f.finish t = (.returned value, t) := by
    simp [finish, bind_of_returned (read_apply t), hresult]
  rw [detour, foreign_returned_iff, bind_of_returned hcaught]
  simp only [ensuring_returned_iff, bind_of_returned hreport, hfinish, dropCaught, pure_apply]
  constructor
  · rintro ⟨_, ⟨_, heq, hdrop⟩, hrelease⟩
    cases heq
    cases hdrop
    exact ⟨rfl, hrelease⟩
  · rintro ⟨rfl, hrelease⟩
    exact ⟨t, ⟨t, rfl, rfl⟩, hrelease⟩

variable {payload : Payload} {manager : ManagerId}

/-- A panic left the boundary: it is reported, the call is made if it was not yet, and the
payload is dropped. -/
theorem detour_of_unwound (hguarded : f.guarded env start = (.unwound payload, t))
    (hmanager : t.manager = some manager) {result : Int32} :
    f.detour env start = (.returned result, u) ↔ payload = .quiet ∧
      ∃ reported finished, onProcess (env.reportPanic manager f.boundary) t =
        (.returned (), reported) ∧ f.finish reported = (.returned result, finished) ∧
        releaseManager env finished = (.returned (), u) := by
  have hcaught : catchUnwind (f.guarded env) start = (.returned (.error payload), t) := by
    simp [catchUnwind, hguarded]
  have hreport : f.reportCaught env (.error payload) t =
      onProcess (env.reportPanic manager f.boundary) t := by
    rw [reportCaught, bind_of_returned (read_apply t)]
    simp [hmanager]
  rw [detour, foreign_returned_iff, bind_of_returned hcaught]
  simp only [ensuring_returned_iff, bind_returned_iff, hreport, dropCaught,
    dropPayload_returned_iff]
  constructor
  · rintro ⟨_, ⟨finished, ⟨_, reported, hr, hf⟩, rfl, rfl⟩, hrelease⟩
    exact ⟨rfl, reported, finished, hr, hf, hrelease⟩
  · rintro ⟨rfl, reported, finished, hr, hf, hrelease⟩
    exact ⟨finished, ⟨finished, ⟨(), reported, hr, hf⟩, rfl, rfl⟩, hrelease⟩

theorem detour_of_aborted (hguarded : f.guarded env start = (.aborted, t)) :
    f.detour env start = (.aborted, t) := by
  have hcaught : catchUnwind (f.guarded env) start = (.aborted, t) := by
    simp [catchUnwind, hguarded]
  simp [detour, foreign, bind_of_aborted hcaught]

def resolved (original : Address) (weak : ManagerId) (process : Process ρ) : Frame ρ :=
  ⟨process, [], none, some original, process.upgrade weak⟩

theorem guarded_of_route {process : Process ρ}
    (hroute : f.route process.routes = some (original, weak)) :
    f.guarded env (Frame.start process) =
      (do
        let guard ← tryEnter
        ensuring (f.forward env original guard) (leave guard) : Run ρ Unit)
        (resolved original weak process) := by
  rw [guarded, bind_of_returned (read_apply _)]
  simp only [Frame.start, hroute]
  rw [bind_of_returned (modify_apply _ _), bind_of_returned (modify_apply _ _)]
  rfl

theorem tryEnter_resolved (original : Address) (weak : ManagerId) (process : Process ρ) :
    tryEnter (resolved original weak process) =
      match process.admit weak with
      | none => (.returned none, resolved original weak process)
      | some entered =>
        (.returned (some weak), { resolved original weak process with process := entered }) := by
  by_cases halive : process.alive weak = true
  · rcases hguard : process.tryEnter weak with _ | entered
    · simp [tryEnter, resolved, Process.admit, Process.upgrade, halive, hguard]
    · simp [tryEnter, resolved, Process.admit, Process.upgrade, halive, hguard]
  · simp [tryEnter, resolved, Process.admit, Process.upgrade, halive]

theorem releases_iff {calls : List NativeCall} :
    (∃ u, releaseManager env t = (.returned (), u) ∧ u.calls = calls) ↔
      t.calls = calls ∧ ∀ manager, t.manager = some manager →
        Returns (env.release manager) t.process := by
  simp only [releaseManager_returned_iff]
  rcases hm : t.manager with _ | manager
  · simp
  · constructor
    · rintro ⟨_, ⟨process, hrelease, rfl⟩, hcalls⟩
      refine ⟨hcalls, fun other hother => ?_⟩
      cases hother
      exact ⟨(), process, hrelease⟩
    · rintro ⟨hcalls, hreturns⟩
      obtain ⟨_, process, hrelease⟩ := hreturns manager rfl
      exact ⟨_, ⟨process, hrelease, rfl⟩, hcalls⟩

theorem releases_of (t : Frame ρ) {calls : List NativeCall} (hcalls : t.calls = calls)
    {manager : ManagerId} (hmanager : t.manager = some manager)
    (hreturns : Returns (env.release manager) t.process) :
    ∃ u, releaseManager env t = (.returned (), u) ∧ u.calls = calls := by
  refine releases_iff.mpr ⟨hcalls, fun other hother => ?_⟩
  cases hmanager.symm.trans hother
  exact hreturns

variable {process : Process ρ}

theorem transparent_of_returned
    (hguarded : f.guarded env (Frame.start process) = (.returned (), t))
    (hresult : t.result = some value) (hcalls : t.calls = [⟨original, f.arguments, value⟩]) :
    f.Transparent env original process ↔
      ∀ manager, t.manager = some manager → Returns (env.release manager) t.process := by
  simp only [Transparent, detour_of_returned hguarded hresult]
  constructor
  · rintro ⟨_, u, ⟨rfl, hrelease⟩, hu⟩
    exact (releases_iff.mp ⟨u, hrelease, hu⟩).2
  · intro hreturns
    obtain ⟨u, hrelease, hu⟩ := releases_iff.mpr ⟨hcalls, hreturns⟩
    exact ⟨value, u, ⟨rfl, hrelease⟩, hu⟩

theorem transparent_of_unwound_after
    (hguarded : f.guarded env (Frame.start process) = (.unwound payload, t))
    (hmanager : t.manager = some manager) (hresult : t.result = some value)
    (hcalls : t.calls = [⟨original, f.arguments, value⟩]) :
    f.Transparent env original process ↔ payload = .quiet ∧
      Returns (do
        env.reportPanic manager f.boundary
        env.release manager) t.process := by
  have hfinish : ∀ process, f.finish { t with process } =
      (.returned value, { t with process }) := by
    intro process
    rw [finish, bind_of_returned (read_apply _)]
    simp [hresult]
  simp only [Transparent, detour_of_unwound hguarded hmanager, onProcess_returned_iff,
    returns_bind_iff]
  constructor
  · rintro ⟨_, u, ⟨hquiet, _, finished, ⟨reported, hreport, rfl⟩, hf, hrelease⟩, hu⟩
    rw [hfinish reported] at hf
    cases hf
    exact ⟨hquiet, (), reported, hreport,
      (releases_iff.mp ⟨u, hrelease, hu⟩).2 manager hmanager⟩
  · rintro ⟨hquiet, _, reported, hreport, hreturns⟩
    obtain ⟨u, hrelease, hu⟩ :=
      releases_of { t with process := reported } hcalls hmanager hreturns
    exact ⟨value, u, ⟨hquiet, _, _, ⟨reported, hreport, rfl⟩, hfinish reported, hrelease⟩, hu⟩

theorem transparent_of_unwound_before
    (hguarded : f.guarded env (Frame.start process) = (.unwound payload, t))
    (hmanager : t.manager = some manager) (hresult : t.result = none)
    (horiginal : t.original = some original) (hcalls : t.calls = [])
    (hresume : f.fallback (some original) = callNative env original f.arguments) :
    f.Transparent env original process ↔ payload = .quiet ∧
      Returns (do
        env.reportPanic manager f.boundary
        let _ ← env.forwarded original f.arguments
        env.release manager) t.process := by
  have hfinish : ∀ process, f.finish { t with process } =
      callNative env original f.arguments { t with process } := by
    intro process
    rw [finish, bind_of_returned (read_apply _)]
    simp [hresult, horiginal, hresume]
  simp only [Transparent, detour_of_unwound hguarded hmanager, onProcess_returned_iff,
    returns_bind_iff]
  constructor
  · rintro ⟨_, u, ⟨hquiet, _, finished, ⟨reported, hreport, rfl⟩, hf, hrelease⟩, hu⟩
    rw [hfinish reported] at hf
    cases hf
    exact ⟨hquiet, (), reported, hreport, _, _, rfl,
      (releases_iff.mp ⟨u, hrelease, hu⟩).2 manager hmanager⟩
  · rintro ⟨hquiet, _, reported, hreport, _, _, hcall, hreturns⟩
    cases hcall
    have hcalled : callNative env original f.arguments { t with process := reported } =
        (.returned (env.native original f.arguments reported).1,
          { t with
            process := (env.native original f.arguments reported).2
            calls := [⟨original, f.arguments,
              (env.native original f.arguments reported).1⟩] }) := by
      simp [callNative, hcalls]
    obtain ⟨u, hrelease, hu⟩ := releases_of { t with
      process := (env.native original f.arguments reported).2
      calls := [⟨original, f.arguments, (env.native original f.arguments reported).1⟩] }
      rfl hmanager hreturns
    exact ⟨_, u, ⟨hquiet, _, _, ⟨reported, hreport, rfl⟩, (hfinish reported).trans hcalled,
      hrelease⟩, hu⟩

def forwardedFrame (f : Forwarding ρ) (env : Environment ρ) (original : Address)
    (frame : Frame ρ) : Frame ρ :=
  let (result, process) := env.native original f.arguments frame.process
  { frame with
    process
    calls := frame.calls ++ [⟨original, f.arguments, result⟩]
    result := some result }

theorem forward_of_none {frame : Frame ρ} :
    f.forward env original none frame = (.returned (), f.forwardedFrame env original frame) := rfl

theorem forward_of_before (env : Environment ρ) (original : Address) (frame : Frame ρ)
    {before : Process ρ} {invocation : Option f.Token}
    (hbefore : f.before manager frame.process = (.returned invocation, before)) :
    f.forward env original (some manager) frame =
      onProcess (f.after manager invocation (env.native original f.arguments before).1)
        (f.forwardedFrame env original { frame with process := before }) := by
  have h : onProcess (f.before manager) frame =
      (.returned invocation, { frame with process := before }) :=
    onProcess_returned_iff.mpr ⟨before, hbefore, rfl⟩
  rw [forward]
  simp only [bind_of_returned h]
  rfl

theorem not_transparent_of_aborted
    (hguarded : f.guarded env (Frame.start process) = (.aborted, t)) :
    ¬f.Transparent env original process := by
  rintro ⟨_, _, h, _⟩
  rw [detour_of_aborted hguarded] at h
  cases h

theorem guarded_of_refused (hroute : f.route process.routes = some (original, weak))
    (hentered : process.admit weak = none) :
    f.guarded env (Frame.start process) =
      (.returned (), f.forwardedFrame env original (resolved original weak process)) := by
  have henter := tryEnter_resolved original weak process
  simp only [hentered] at henter
  rw [guarded_of_route hroute, bind_of_returned henter]
  exact ensuring_returned_iff.mpr ⟨_, forward_of_none, rfl⟩

theorem upgrade_of_admit {entered : Process ρ} (hentered : process.admit weak = some entered) :
    process.upgrade weak = some weak := by
  obtain ⟨_, hm, _⟩ := Option.bind_eq_some_iff.mp hentered
  unfold Process.upgrade at hm ⊢
  split at hm
  next halive => rw [if_pos halive]
  next => cases hm

section Admitted

variable (hroute : f.route process.routes = some (original, weak)) {entered : Process ρ}
  (hentered : process.admit weak = some entered)

include hroute hentered

theorem guarded_of_admitted :
    f.guarded env (Frame.start process) =
      ensuring (f.forward env original (some weak)) (leave (some weak))
        ⟨entered, [], none, some original, some weak⟩ := by
  have henter := tryEnter_resolved original weak process
  simp only [hentered, resolved, upgrade_of_admit hentered] at henter
  rw [guarded_of_route hroute, resolved, upgrade_of_admit hentered, bind_of_returned henter]

variable {before : Process ρ}

theorem guarded_of_before_unwound {payload : Payload}
    (hbefore : f.before weak entered = (.unwound payload, before)) :
    f.guarded env (Frame.start process) =
      (.unwound payload, ⟨before.leave weak, [], none, some original, some weak⟩) := by
  rw [guarded_of_admitted hroute hentered]
  exact ensuring_of_unwound (bind_of_unwound (onProcess_of_unwound hbefore) _) rfl

theorem guarded_of_before_aborted (env : Environment ρ)
    (hbefore : f.before weak entered = (.aborted, before)) :
    f.guarded env (Frame.start process) =
      (.aborted, ⟨before, [], none, some original, some weak⟩) := by
  rw [guarded_of_admitted hroute hentered]
  exact ensuring_of_aborted (bind_of_aborted (onProcess_of_aborted hbefore) _)

theorem guarded_of_before_returned {invocation : Option f.Token}
    (hbefore : f.before weak entered = (.returned invocation, before)) {result : Int32}
    {called : Process ρ} (hnative : env.native original f.arguments before = (result, called)) :
    f.guarded env (Frame.start process) =
      ensuring (onProcess (f.after weak invocation result)) (leave (some weak))
        ⟨called, [⟨original, f.arguments, result⟩], some result, some original, some weak⟩ := by
  have hforward := forward_of_before env original
    ⟨entered, [], none, some original, some weak⟩ hbefore
  simp only [forwardedFrame, hnative, List.nil_append] at hforward
  rw [guarded_of_admitted hroute hentered, ensuring, ensuring, hforward]

end Admitted

theorem transparent_iff_contained (hroute : f.route process.routes = some (original, weak))
    (hresume : ∀ manager process payload after,
      f.before manager process = (.unwound payload, after) →
        f.fallback (some original) = callNative env original f.arguments) :
    f.Transparent env original process ↔ f.Contained env original weak process := by
  unfold Contained
  rcases hentered : process.admit weak with _ | entered
  · rw [transparent_of_returned (guarded_of_refused hroute hentered) rfl rfl]
    by_cases halive : process.alive weak = true
    · simp [forwardedFrame, resolved, Process.upgrade, halive]
    · simp [forwardedFrame, resolved, Process.upgrade, halive]
  simp only
  rcases hbefore : f.before weak entered with ⟨invocation | payload | _, before⟩
  · rcases hnative : env.native original f.arguments before with ⟨result, called⟩
    have hguarded := guarded_of_before_returned hroute hentered hbefore hnative
    simp only [hnative]
    rcases hafter : f.after weak invocation result called with ⟨_ | payload | _, after⟩
    · have h : f.guarded env (Frame.start process) = (.returned (), ⟨after.leave weak,
          [⟨original, f.arguments, result⟩], some result, some original, some weak⟩) := by
        rw [hguarded]
        exact ensuring_returned_iff.mpr
          ⟨_, onProcess_returned_iff.mpr ⟨after, hafter, rfl⟩, rfl⟩
      rw [transparent_of_returned h rfl rfl]
      simp
    · have h : f.guarded env (Frame.start process) = (.unwound payload, ⟨after.leave weak,
          [⟨original, f.arguments, result⟩], some result, some original, some weak⟩) := by
        rw [hguarded]
        exact ensuring_of_unwound (onProcess_of_unwound hafter) rfl
      exact transparent_of_unwound_after h rfl rfl rfl
    · have h : f.guarded env (Frame.start process) = (.aborted, ⟨after,
          [⟨original, f.arguments, result⟩], some result, some original, some weak⟩) := by
        rw [hguarded]
        exact ensuring_of_aborted (onProcess_of_aborted hafter)
      simpa using not_transparent_of_aborted h
  · exact transparent_of_unwound_before (guarded_of_before_unwound hroute hentered hbefore) rfl rfl
      rfl rfl (hresume weak entered payload before hbefore)
  · simpa using
      not_transparent_of_aborted (guarded_of_before_aborted hroute hentered env hbefore)

theorem contained_of_tame (hbefore : ∀ manager, Tame (f.before manager))
    (hafter : ∀ manager invocation result, Tame (f.after manager invocation result))
    (hreport : Total (env.reportPanic weak f.boundary)) (hrelease : Total (env.release weak)) :
    f.Contained env original weak process := by
  have hreported : Total (do
      env.reportPanic weak f.boundary
      env.release weak) := hreport.bind fun _ => hrelease
  have hforwarded : Total (do
      env.reportPanic weak f.boundary
      let _ ← env.forwarded original f.arguments
      env.release weak) :=
    hreport.bind fun _ => Total.bind (fun process => ⟨_, _, rfl⟩) fun _ => hrelease
  unfold Contained
  rcases process.admit weak with _ | entered
  · exact fun _ => hrelease _
  simp only
  rcases hbefore weak entered with ⟨invocation, before, h⟩ | ⟨before, h⟩
  · simp only [h]
    rcases hafter weak invocation (env.native original f.arguments before).1
      (env.native original f.arguments before).2 with ⟨_, after, ha⟩ | ⟨after, ha⟩
    · simp only [ha]
      exact hrelease _
    · simp only [ha]
      exact ⟨trivial, hreported _⟩
  · simp only [h]
    exact ⟨trivial, hforwarded _⟩

end Forwarding

/-- No destructor of a panic payload panics, nothing aborts, and the release of the manager
returns. Everything may still panic at any time. -/
structure Environment.Tame (env : Environment ρ) : Prop where
  observation : ∀ manager event, Unwinding.Tame (env.observation manager event)
  diagnostic : ∀ manager event, Unwinding.Tame (env.diagnostic manager event)
  retireSwapChain : ∀ manager retire, env.retireSwapChain manager = some retire →
    ∀ retirement, Unwinding.Tame (retire retirement)
  attachFactory : ∀ manager pointer iid, Unwinding.Tame (env.attachFactory manager pointer iid)
  attachSwapChain : ∀ manager pointer iid,
    Unwinding.Tame (env.attachSwapChain manager pointer iid)
  beforePresent : ∀ manager this method, Unwinding.Tame (env.beforePresent manager this method)
  afterPresent : ∀ manager this method invocation result,
    Unwinding.Tame (env.afterPresent manager this method invocation result)
  beforeResize : ∀ manager this width height format,
    Unwinding.Tame (env.beforeResize manager this width height format)
  afterResize : ∀ manager this invocation result,
    Unwinding.Tame (env.afterResize manager this invocation result)
  afterSetColorSpace : ∀ manager this colorSpace result,
    Unwinding.Tame (env.afterSetColorSpace manager this colorSpace result)
  release : ∀ manager, Total (env.release manager)

namespace Environment.Tame

variable {env : Environment ρ} (h : env.Tame)

include h

theorem invokeRenderer {callback : Code ρ (Except RenderCallbackError Unit)}
    (hcallback : Unwinding.Tame callback) (manager : ManagerId) (id : Nat)
    (boundary : Boundary) : Total (env.invokeRenderer manager callback id boundary) := by
  refine hcallback.catchUnwind_bind (fun result => ?_) ?_
  · cases result with
    | ok => exact Total.pure true
    | error => exact (h.diagnostic _ _).discardPanic.bind fun _ => Total.pure false
  · refine Total.ensuring ?_ (Total.pure ())
    exact (h.observation _ _).discardPanic.bind fun _ =>
      (h.diagnostic _ _).discardPanic.bind fun _ => Total.pure false

theorem retireRendererSwapChain (manager : ManagerId) (retirement : SwapChainRetirement) :
    Total (env.retireRendererSwapChain manager retirement) := by
  unfold Environment.retireRendererSwapChain
  split
  · exact Total.pure ()
  next retire hretire =>
    exact (h.invokeRenderer (h.retireSwapChain manager retire hretire retirement) _ _ _).bind
      fun _ => Total.pure ()

theorem retireBatch (manager : ManagerId) (batch : List SwapChainRetirement) :
    Total (env.retireBatch manager batch) := by
  induction batch with
  | nil => exact Total.pure ()
  | cons retirement _ ih => exact (h.retireRendererSwapChain manager retirement).bind fun _ => ih

theorem drainDeferredRetirementsInLane (manager : ManagerId)
    (batches : List (List SwapChainRetirement)) :
    Total (env.drainDeferredRetirementsInLane manager batches) := by
  induction batches with
  | nil => exact Total.pure ()
  | cons batch _ ih =>
    cases batch with
    | nil => exact Total.pure ()
    | cons => exact (h.retireBatch manager _).bind fun _ => ih

theorem drainDeferredRetirementsIfAvailable (manager : ManagerId)
    (holds : List (List (List SwapChainRetirement))) :
    Total (env.drainDeferredRetirementsIfAvailable manager holds) := by
  induction holds with
  | nil => exact Total.pure ()
  | cons batches _ ih => exact (h.drainDeferredRetirementsInLane manager batches).bind fun _ => ih

theorem reportPanic (manager : ManagerId) (boundary : Boundary) :
    Total (env.reportPanic manager boundary) :=
  (h.observation _ _).discardPanic.bind fun _ =>
    Total.bind (fun process => ⟨process, process, rfl⟩) fun _ =>
      h.drainDeferredRetirementsIfAvailable manager _

theorem reportAttachError (manager : ManagerId) (kind : ObjectKind) (swapChain : Option Nat)
    (error : DxgiError) : Total (env.reportAttachError manager kind swapChain error) := by
  unfold Environment.reportAttachError
  split
  · exact (h.diagnostic _ _).discardPanic
  · exact Total.pure ()

theorem attachCreatedSwapChain (manager : ManagerId) (result : Int32) (output : Address)
    (interface : SwapChainInterface) :
    Unwinding.Tame (env.attachCreatedSwapChain manager result output interface) := by
  unfold Environment.attachCreatedSwapChain
  split
  · exact (Total.pure ()).tame
  · refine Unwinding.Tame.bind (Total.tame fun process => ⟨process, process, rfl⟩) fun process => ?_
    dsimp only
    split
    · exact (Total.pure ()).tame
    · refine (h.attachSwapChain _ _ _).bind fun attached => ?_
      cases attached with
      | ok => exact (Total.pure ()).tame
      | error error => exact (h.reportAttachError _ _ _ error).tame

theorem attach (manager : ManagerId) (kind : ObjectKind) (pointer : Address) (iid : Guid) :
    Unwinding.Tame (env.attach manager kind pointer iid) := by
  cases kind with
  | factory => exact h.attachFactory manager pointer iid
  | swapChain => exact h.attachSwapChain manager pointer iid

theorem attachQueried (manager : ManagerId) (kind : ObjectKind) (iid output : Address)
    (result : Int32) : Unwinding.Tame (env.attachQueried manager kind iid output result) := by
  unfold Environment.attachQueried
  split
  · exact (Total.pure ()).tame
  · refine Unwinding.Tame.bind (Total.tame fun process => ⟨process, process, rfl⟩) fun process => ?_
    dsimp only
    split
    · exact (Total.pure ()).tame
    split
    · exact (Total.pure ()).tame
    · refine (h.attach _ _ _ _).bind fun attached => ?_
      cases attached with
      | ok => exact (Total.pure ()).tame
      | error error => exact (h.reportAttachError _ _ _ error).tame

theorem before (call : DetourCall) (manager : ManagerId) :
    Unwinding.Tame ((call.forwarding env).before manager) := by
  cases call with
  | present this => exact h.beforePresent manager this .present
  | present1 this => exact h.beforePresent manager this .present1
  | resizeBuffers this _ width height format | resizeBuffers1 this _ width height format =>
    exact h.beforeResize manager this width height format
  | _ => exact (Total.pure none).tame

theorem after (call : DetourCall) (manager : ManagerId)
    (invocation : Option (call.forwarding env).Token) (result : Int32) :
    Unwinding.Tame ((call.forwarding env).after manager invocation result) := by
  cases call with
  | queryInterface kind _ iid output => exact h.attachQueried manager kind iid output result
  | present this => exact h.afterPresent manager this .present invocation result
  | present1 this => exact h.afterPresent manager this .present1 invocation result
  | resizeBuffers this | resizeBuffers1 this =>
    exact h.afterResize manager this invocation result
  | setColorSpace1 this colorSpace =>
    exact h.afterSetColorSpace manager this colorSpace result
  | _ => exact h.attachCreatedSwapChain manager result _ _

end Environment.Tame

theorem DetourCall.resumes (env : Environment ρ) (call : DetourCall) (original : Address)
    {manager : ManagerId} {process after : Process ρ} {payload : Payload}
    (h : (call.forwarding env).before manager process = (.unwound payload, after)) :
    (call.forwarding env).fallback (some original) =
      callNative env original (call.forwarding env).arguments := by
  cases call with
  | present | present1 | resizeBuffers | resizeBuffers1 => rfl
  | _ => cases h

/-- A detour whose pointer has a route with an original is transparent exactly when the panics
around it are contained; it always is when no destructor of a payload panics. -/
theorem detours_are_transparent (env : Environment ρ) (call : DetourCall) (process : Process ρ)
    (original : Address) (weak : ManagerId)
    (hroute : (call.forwarding env).route process.routes = some (original, weak)) :
    ((call.forwarding env).Transparent env original process ↔
        (call.forwarding env).Contained env original weak process) ∧
      (env.Tame → (call.forwarding env).Transparent env original process) := by
  have hiff : (call.forwarding env).Transparent env original process ↔
      (call.forwarding env).Contained env original weak process :=
    Forwarding.transparent_iff_contained hroute fun _ _ _ _ h => call.resumes env original h
  refine ⟨hiff, fun h => hiff.mpr ?_⟩
  exact Forwarding.contained_of_tame (h.before call) (h.after call) (h.reportPanic weak _)
    (h.release weak)

/-- A swap chain at 1 whose route has its `Present` at 7. -/
def hookedProcess : Process Unit where
  routes := fun pointer =>
    if pointer = 1 then some (.swapChain 0 ⟨5, 7, none, 9, none, none⟩) else none
  alive := fun _ => true
  gate := fun _ => .opened
  pointerAt := fun _ => 0
  guidAt := fun _ => 0
  rest := ()

/-- An observer that panics at everything it is told, always with this payload. The first
`Present` of a swap chain tells it before the native call that the color space is unknown, and
every `Present` tells it afterwards. -/
def panickingObserver (payload : Payload) : Environment Unit where
  native := fun _ _ process => (0, process)
  currentMethod := fun _ _ _ => none
  originalIunknownQuery := fun _ _ => none
  detourAddress := fun _ => 0
  factoryIid := fun _ => 0
  swapChainIid := fun _ => 0
  observation := fun _ _ => panicAny payload
  diagnostic := fun _ _ => pure ()
  retireSwapChain := fun _ => none
  deferredRetirements := fun _ _ => []
  attachFactory := fun _ _ _ => pure (.error .unsupportedInterface)
  attachSwapChain := fun _ _ _ => pure (.error .unsupportedInterface)
  beforePresent := fun _ _ _ => do
    discardPanic (panicAny payload : Code Unit Unit)
    pure (some ⟨1, 1, true⟩)
  afterPresent := fun _ _ _ _ _ => discardPanic (panicAny payload : Code Unit Unit)
  beforeResize := fun _ _ _ _ _ => pure none
  afterResize := fun _ _ _ _ => pure ()
  afterSetColorSpace := fun _ _ _ _ => pure ()
  release := fun _ => pure ()

theorem panickingObserver_tame : (panickingObserver .quiet).Tame where
  observation := fun _ _ => Unwinding.Tame.panicAny
  diagnostic := fun _ _ => (Total.pure ()).tame
  retireSwapChain := fun _ _ h => by cases h
  attachFactory := fun _ _ _ => (Total.pure _).tame
  attachSwapChain := fun _ _ _ => (Total.pure _).tame
  beforePresent := fun _ _ _ =>
    (Unwinding.Tame.panicAny.discardPanic.bind fun _ => Total.pure _).tame
  afterPresent := fun _ _ _ _ _ => Unwinding.Tame.panicAny.discardPanic.tame
  beforeResize := fun _ _ _ _ _ => (Total.pure _).tame
  afterResize := fun _ _ _ _ => (Total.pure _).tame
  afterSetColorSpace := fun _ _ _ _ => (Total.pure _).tame
  release := fun _ => Total.pure ()

/-- Ordinary panics of the observer do not reach the game. -/
theorem present_survives_panicking_observer :
    (presentDetour (panickingObserver .quiet) 1 0 0).Transparent (panickingObserver .quiet) 7
      hookedProcess :=
  (detours_are_transparent (panickingObserver .quiet) (.present 1 0 0) hookedProcess 7 0 rfl).2
    panickingObserver_tame

/-- When the destructors of the payloads panic too, the first panic leaves the boundary before
the native call and the second one leaves the report: the process aborts and `Present` was
never called. -/
theorem present_aborts_on_panicking_destructors :
    (presentDetour (panickingObserver (.panicking .quiet)) 1 0 0).route hookedProcess.routes =
        some (7, 0) ∧
      (presentDetour (panickingObserver (.panicking .quiet)) 1 0 0).detour
        (panickingObserver (.panicking .quiet)) (Frame.start hookedProcess) =
        (.aborted, ⟨(hookedProcess.tryEnter 0).elim hookedProcess fun entered => entered.leave 0,
          [], none, some 7, some 0⟩) ∧
      ¬(presentDetour (panickingObserver (.panicking .quiet)) 1 0 0).Transparent
        (panickingObserver (.panicking .quiet)) 7 hookedProcess := by
  have habort : (presentDetour (panickingObserver (.panicking .quiet)) 1 0 0).detour
      (panickingObserver (.panicking .quiet)) (Frame.start hookedProcess) =
      (.aborted, ⟨(hookedProcess.tryEnter 0).elim hookedProcess fun entered => entered.leave 0,
        [], none, some 7, some 0⟩) := rfl
  refine ⟨rfl, habort, ?_⟩
  rintro ⟨_, _, hreturned, _⟩
  rw [habort] at hreturned
  cases hreturned

end Nexus.Dxgi
