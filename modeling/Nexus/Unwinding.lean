import Mathlib.Logic.Basic

namespace Nexus

/-- A panic payload. Dropping it runs its destructor, which may panic in its turn. -/
inductive Payload where
  | quiet
  | panicking (next : Payload)
  deriving DecidableEq

/-- How code that may panic ends. A destructor that panics while the stack unwinds aborts the
process, and so does a panic that reaches a foreign caller. -/
inductive Ended (α : Type) where
  | returned (value : α)
  | unwound (payload : Payload)
  | aborted
  deriving DecidableEq

/-- Code on a mutable state that may panic. -/
def Unwinding (σ α : Type) : Type := σ → Ended α × σ

namespace Unwinding

variable {σ τ α β : Type}

instance : Monad (Unwinding σ) where
  pure a := fun s => (.returned a, s)
  bind x f := fun s =>
    match x s with
    | (.returned a, s) => f a s
    | (.unwound payload, s) => (.unwound payload, s)
    | (.aborted, s) => (.aborted, s)

def read : Unwinding σ σ := fun s => (.returned s, s)

def modify (f : σ → σ) : Unwinding σ Unit := fun s => (.returned (), f s)

/-- `std::panic::panic_any`. -/
def panicAny (payload : Payload) : Unwinding σ α := fun s => (.unwound payload, s)

def zoom (view : σ → τ) (put : τ → σ → σ) (x : Unwinding τ α) : Unwinding σ α := fun s =>
  ((x (view s)).1, put (x (view s)).2 s)

def catchUnwind (x : Unwinding σ α) : Unwinding σ (Except Payload α) := fun s =>
  match x s with
  | (.returned a, s) => (.returned (.ok a), s)
  | (.unwound payload, s) => (.returned (.error payload), s)
  | (.aborted, s) => (.aborted, s)

def dropPayload : Payload → Unwinding σ Unit
  | .quiet => pure ()
  | .panicking next => panicAny next

def ensuring (body : Unwinding σ α) (destructor : Unwinding σ Unit) : Unwinding σ α := fun s =>
  match body s with
  | (.returned a, s) => (do destructor; pure a : Unwinding σ α) s
  | (.unwound payload, s) =>
    match destructor s with
    | (.returned (), s) => (.unwound payload, s)
    | (_, s) => (.aborted, s)
  | (.aborted, s) => (.aborted, s)

def discardPanic (x : Unwinding σ α) : Unwinding σ Unit := do
  match ← catchUnwind x with
  | .ok _ => pure ()
  | .error payload => dropPayload payload

/-- The body of a function with a foreign ABI: a panic must not leave it. -/
def foreign (x : Unwinding σ α) : Unwinding σ α := fun s =>
  match x s with
  | (.returned a, s) => (.returned a, s)
  | (_, s) => (.aborted, s)

@[simp] theorem pure_apply (a : α) (s : σ) : (pure a : Unwinding σ α) s = (.returned a, s) := rfl

@[simp] theorem read_apply (s : σ) : (read : Unwinding σ σ) s = (.returned s, s) := rfl

@[simp] theorem modify_apply (f : σ → σ) (s : σ) :
    (modify f : Unwinding σ Unit) s = (.returned (), f s) := rfl

@[simp] theorem zoom_apply (view : σ → τ) (put : τ → σ → σ) (x : Unwinding τ α) (s : σ) :
    zoom view put x s = ((x (view s)).1, put (x (view s)).2 s) := rfl

theorem bind_apply (x : Unwinding σ α) (f : α → Unwinding σ β) (s : σ) :
    (x >>= f) s = match x s with
      | (.returned a, s) => f a s
      | (.unwound payload, s) => (.unwound payload, s)
      | (.aborted, s) => (.aborted, s) := rfl

variable {x : Unwinding σ α} {s t : σ} {a : α}

theorem bind_of_returned (h : x s = (.returned a, t)) (f : α → Unwinding σ β) :
    (x >>= f) s = f a t := by
  rw [bind_apply, h]

variable {payload : Payload}

theorem bind_of_unwound (h : x s = (.unwound payload, t)) (f : α → Unwinding σ β) :
    (x >>= f) s = (.unwound payload, t) := by
  rw [bind_apply, h]

theorem bind_of_aborted (h : x s = (.aborted, t)) (f : α → Unwinding σ β) :
    (x >>= f) s = (.aborted, t) := by
  rw [bind_apply, h]

variable {f : α → Unwinding σ β} {u : σ}

theorem bind_returned_iff {b : β} :
    (x >>= f) s = (.returned b, u) ↔
      ∃ a t, x s = (.returned a, t) ∧ f a t = (.returned b, u) := by
  rcases hx : x s with ⟨a | _ | _, t⟩
  · rw [bind_of_returned hx]
    constructor
    · intro h
      exact ⟨a, t, rfl, h⟩
    · rintro ⟨a', t', heq, h⟩
      cases heq
      exact h
  · simp [bind_of_unwound hx]
  · simp [bind_of_aborted hx]

variable {destructor : Unwinding σ Unit}

theorem ensuring_returned_iff : ensuring x destructor s = (.returned a, u) ↔
      ∃ t, x s = (.returned a, t) ∧ destructor t = (.returned (), u) := by
  unfold ensuring
  rcases hx : x s with ⟨_ | _ | _, t⟩
  · simp only [bind_returned_iff, pure_apply]
    constructor
    · rintro ⟨_, _, hd, heq⟩
      cases heq
      exact ⟨t, rfl, hd⟩
    · rintro ⟨t', heq, hd⟩
      cases heq
      exact ⟨(), u, hd, rfl⟩
  · rcases hd : destructor t with ⟨_ | _ | _, u'⟩ <;> simp [hd]
  · simp

theorem ensuring_of_unwound (hx : x s = (.unwound payload, t))
    (hd : destructor t = (.returned (), u)) : ensuring x destructor s = (.unwound payload, u) := by
  simp [ensuring, hx, hd]

theorem ensuring_of_aborted (hx : x s = (.aborted, t)) :
    ensuring x destructor s = (.aborted, t) := by
  simp [ensuring, hx]

theorem foreign_returned_iff : foreign x s = (.returned a, t) ↔ x s = (.returned a, t) := by
  unfold foreign
  rcases x s with ⟨_ | _ | _, u⟩ <;> simp

theorem dropPayload_returned_iff :
    dropPayload payload s = (.returned (), t) ↔ payload = .quiet ∧ s = t := by
  cases payload with
  | quiet => simp [dropPayload]
  | panicking => simp [dropPayload, panicAny]

def Returns (x : Unwinding σ α) (s : σ) : Prop := ∃ a t, x s = (.returned a, t)

theorem returns_bind_iff :
    Returns (x >>= f) s ↔ ∃ a t, x s = (.returned a, t) ∧ Returns (f a) t := by
  constructor
  · rintro ⟨b, u, h⟩
    obtain ⟨a, t, hx, hf⟩ := bind_returned_iff.mp h
    exact ⟨a, t, hx, b, u, hf⟩
  · rintro ⟨a, t, hx, b, u, hf⟩
    exact ⟨b, u, bind_returned_iff.mpr ⟨a, t, hx, hf⟩⟩

/-- The code returns or unwinds, and then with a payload that drops quietly. -/
def Tame (x : Unwinding σ α) : Prop :=
  ∀ s, (∃ a t, x s = (.returned a, t)) ∨ ∃ t, x s = (.unwound .quiet, t)

def Total (x : Unwinding σ α) : Prop := ∀ s, Returns x s

theorem Total.tame (h : Total x) : Tame x := fun s => .inl (h s)

theorem Total.pure (a : α) : Total (Pure.pure a : Unwinding σ α) := fun s => ⟨a, s, rfl⟩

theorem Total.bind (hx : Total x) (hf : ∀ a, Total (f a)) : Total (x >>= f) := by
  intro s
  obtain ⟨a, t, ha⟩ := hx s
  obtain ⟨b, u, hb⟩ := hf a t
  exact ⟨b, u, (bind_of_returned ha f).trans hb⟩

theorem Tame.panicAny : Tame (panicAny .quiet : Unwinding σ α) := fun s => .inr ⟨s, rfl⟩

theorem Tame.bind (hx : Tame x) (hf : ∀ a, Tame (f a)) : Tame (x >>= f) := by
  intro s
  rcases hx s with ⟨a, t, ha⟩ | ⟨t, ht⟩
  · rw [bind_of_returned ha]
    exact hf a t
  · exact .inr ⟨t, bind_of_unwound ht f⟩

theorem Tame.catchUnwind_bind {f : Except Payload α → Unwinding σ β} (hx : Tame x)
    (hok : ∀ a, Total (f (.ok a))) (hquiet : Total (f (.error .quiet))) :
    Total (catchUnwind x >>= f) := by
  intro s
  rcases hx s with ⟨a, t, ha⟩ | ⟨t, ht⟩
  · have hcaught : catchUnwind x s = (.returned (.ok a), t) := by simp [catchUnwind, ha]
    obtain ⟨b, u, hb⟩ := hok a t
    exact ⟨b, u, (bind_of_returned hcaught f).trans hb⟩
  · have hcaught : catchUnwind x s = (.returned (.error .quiet), t) := by simp [catchUnwind, ht]
    obtain ⟨b, u, hb⟩ := hquiet t
    exact ⟨b, u, (bind_of_returned hcaught f).trans hb⟩

theorem Tame.discardPanic (hx : Tame x) : Total (discardPanic x) :=
  hx.catchUnwind_bind (fun _ => Total.pure ()) (Total.pure ())

theorem Total.ensuring (hx : Total x) (hd : Total destructor) : Total (ensuring x destructor) := by
  intro s
  obtain ⟨a, t, ha⟩ := hx s
  obtain ⟨_, u, hu⟩ := hd t
  exact ⟨a, u, ensuring_returned_iff.mpr ⟨t, ha, hu⟩⟩

end Unwinding

end Nexus
