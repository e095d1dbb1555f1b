import Mathlib.Logic.Relation
import Mathlib.Algebra.GroupWithZero.Nat

namespace Nexus

/-- What a call across a native or injected boundary does: it returns a value, or it unwinds
and the payload is discarded. -/
inductive Call (α : Type) where
  | returned (value : α)
  | unwound
  deriving DecidableEq

namespace Call

variable {α β : Type}

instance : Monad Call where
  pure := .returned
  bind
    | .returned a, f => f a
    | .unwound, _ => .unwound

/-- The value, with `none` for an unwind. -/
def value? : Call α → Option α
  | .returned a => some a
  | .unwound => none

end Call

theorem except_bind_ok {ε α β : Type} {x : Except ε α} {f : α → Except ε β} {b : β}
    (h : (x >>= f) = .ok b) : ∃ a, x = .ok a ∧ f a = .ok b := by
  cases x with
  | error => cases h
  | ok a => exact ⟨a, rfl, h⟩

inductive Fault (ε : Type) where
  | error (error : ε)
  | unwound
  deriving DecidableEq

/-- A method on a mutable state that returns a result: an error keeps the changes made
before it. -/
def Fallible (σ ε α : Type) : Type := σ → Except ε α × σ

namespace Fallible

variable {σ τ ε δ α β : Type}

instance : Monad (Fallible σ ε) where
  pure a := fun s => (.ok a, s)
  bind x f := fun s =>
    match x s with
    | (.ok a, s) => f a s
    | (.error e, s) => (.error e, s)

def fail (e : ε) : Fallible σ ε α := fun s => (.error e, s)

def read : Fallible σ ε σ := fun s => (.ok s, s)

def modify (f : σ → σ) : Fallible σ ε Unit := fun s => (.ok (), f s)

def ensure (p : Prop) [Decidable p] (e : ε) : Fallible σ ε Unit :=
  if p then pure () else fail e

def require (o : Option α) (e : ε) : Fallible σ ε α :=
  match o with
  | some a => pure a
  | none => fail e

def attempt (x : Fallible σ ε α) : Fallible σ δ (Except ε α) := fun s => (.ok (x s).1, (x s).2)

def ofExcept (f : ε → δ) : Except ε α → Fallible σ δ α
  | .ok a => pure a
  | .error e => fail (f e)

def mapError (f : ε → δ) (x : Fallible σ ε α) : Fallible σ δ α := fun s =>
  ((x s).1.mapError f, (x s).2)

def zoom (view : σ → τ) (put : τ → σ → σ) (x : Fallible τ ε α) : Fallible σ ε α := fun s =>
  ((x (view s)).1, put (x (view s)).2 s)

@[simp] theorem pure_apply (a : α) (s : σ) : (pure a : Fallible σ ε α) s = (.ok a, s) := rfl

theorem bind_apply (x : Fallible σ ε α) (f : α → Fallible σ ε β) (s : σ) :
    (x >>= f) s = match x s with
      | (.ok a, s) => f a s
      | (.error e, s) => (.error e, s) := rfl

variable {x : Fallible σ ε α}

theorem bind_of_ok {s t : σ} {a : α} (h : x s = (.ok a, t)) (f : α → Fallible σ ε β) :
    (x >>= f) s = f a t := by
  rw [bind_apply, h]

theorem bind_of_error {s t : σ} {e : ε} (h : x s = (.error e, t)) (f : α → Fallible σ ε β) :
    (x >>= f) s = (.error e, t) := by
  rw [bind_apply, h]

@[simp] theorem fail_apply (e : ε) (s : σ) : (fail e : Fallible σ ε α) s = (.error e, s) := rfl

@[simp] theorem read_apply (s : σ) : (read : Fallible σ ε σ) s = (.ok s, s) := rfl

@[simp] theorem modify_apply (f : σ → σ) (s : σ) :
    (modify f : Fallible σ ε Unit) s = (.ok (), f s) := rfl

theorem ensure_apply (p : Prop) [Decidable p] (e : ε) (s : σ) :
    (ensure p e : Fallible σ ε Unit) s = (if p then .ok () else .error e, s) := by
  unfold ensure
  split <;> rfl

variable {p : Prop}

@[simp] theorem ensure_true [Decidable p] (h : p) (e : ε) :
    (ensure p e : Fallible σ ε Unit) = pure () := if_pos h

@[simp] theorem ensure_false [Decidable p] (h : ¬p) (e : ε) :
    (ensure p e : Fallible σ ε Unit) = fail e := if_neg h

@[simp] theorem require_some (a : α) (e : ε) :
    (require (some a) e : Fallible σ ε α) = pure a := rfl

@[simp] theorem require_none (e : ε) : (require none e : Fallible σ ε α) = fail e := rfl

@[simp] theorem ofExcept_ok (f : ε → δ) (a : α) :
    (ofExcept f (.ok a) : Fallible σ δ α) = pure a := rfl

@[simp] theorem mapError_apply (f : ε → δ) (x : Fallible σ ε α) (s : σ) :
    mapError f x s = ((x s).1.mapError f, (x s).2) := rfl

@[simp] theorem zoom_apply (view : σ → τ) (put : τ → σ → σ) (x : Fallible τ ε α) (s : σ) :
    zoom view put x s = ((x (view s)).1, put (x (view s)).2 s) := rfl

@[simp] theorem pure_bind' (a : α) (f : α → Fallible σ ε β) : (pure a >>= f) = f a := rfl

@[simp] theorem fail_bind (e : ε) (f : α → Fallible σ ε β) : (fail e >>= f) = fail e := rfl

/-- Every run from a state satisfying `P` ends, error or not, in `Q`. -/
def Ensures (P : σ → Prop) (x : Fallible σ ε α) (Q : Except ε α → σ → Prop) : Prop :=
  ∀ s, P s → Q (x s).1 (x s).2

variable {P : σ → Prop}

theorem Ensures.bind {f : α → Fallible σ ε β} {R : α → σ → Prop} {Q : Except ε β → σ → Prop}
    (hx : Ensures P x fun r s => match r with | .ok a => R a s | .error e => Q (.error e) s)
    (hf : ∀ a, Ensures (R a) (f a) Q) : Ensures P (x >>= f) Q := by
  intro s hp
  have h := hx s hp
  rw [bind_apply]
  rcases hxs : x s with ⟨r | a, t⟩
  · simpa [hxs] using h
  · exact hf a t (by simpa [hxs] using h)

variable {Q : Except ε α → σ → Prop}

theorem Ensures.mono {P' : σ → Prop} {Q' : Except ε α → σ → Prop} (h : Ensures P x Q)
    (hp : ∀ s, P' s → P s) (hq : ∀ r s, Q r s → Q' r s) :
    Ensures P' x Q' := fun s hs => hq _ _ (h s (hp s hs))

theorem Ensures.assuming (h : p → Ensures P x Q) : Ensures (fun s => P s ∧ p) x Q :=
  fun s hs => h hs.2 s hs.1

theorem Ensures.pure {a : α} (h : ∀ s, P s → Q (.ok a) s) : Ensures P (Pure.pure a) Q := h

theorem Ensures.ensure [Decidable p] {e : ε} {Q : Except ε Unit → σ → Prop}
    (hok : p → ∀ s, P s → Q (.ok ()) s) (herror : ¬p → ∀ s, P s → Q (.error e) s) :
    Ensures P (Fallible.ensure p e) Q := by
  intro s hs
  rw [ensure_apply]
  by_cases hp : p
  · rw [if_pos hp]
    exact hok hp s hs
  · rw [if_neg hp]
    exact herror hp s hs

theorem Ensures.mapError {f : ε → δ} {Q : Except δ α → σ → Prop}
    (h : Ensures P x fun r s => Q (r.mapError f) s) : Ensures P (Fallible.mapError f x) Q := h

theorem Ensures.attempt {Q : Except δ (Except ε α) → σ → Prop}
    (h : Ensures P x fun r s => Q (.ok r) s) : Ensures P (Fallible.attempt x) Q := h

/-- The method only moves the state along `R`. -/
def Follows (R : σ → σ → Prop) (x : Fallible σ ε α) : Prop := ∀ s, R s (x s).2

section Follows

variable {R : σ → σ → Prop}

theorem Follows.bind (trans : ∀ a b c, R a b → R b c → R a c) {x : Fallible σ ε α}
    {f : α → Fallible σ ε β} (hx : Follows R x) (hf : ∀ a, Follows R (f a)) :
    Follows R (x >>= f) := by
  intro s
  have h := hx s
  rw [bind_apply]
  rcases hxs : x s with ⟨_ | a, t⟩
  · simpa [hxs] using h
  · exact trans _ _ _ (by simpa [hxs] using h) (hf a t)

theorem Follows.pure (refl : ∀ a, R a a) (a : α) : Follows R (Pure.pure a : Fallible σ ε α) :=
  fun s => refl s

theorem Follows.fail (refl : ∀ a, R a a) (e : ε) : Follows R (Fallible.fail e : Fallible σ ε α) :=
  fun s => refl s

theorem Follows.ensure (refl : ∀ a, R a a) (p : Prop) [Decidable p] (e : ε) :
    Follows R (Fallible.ensure p e : Fallible σ ε Unit) := by
  intro s
  rw [ensure_apply]
  exact refl s

theorem Follows.attempt {x : Fallible σ ε α} (hx : Follows R x) :
    Follows R (Fallible.attempt x : Fallible σ δ (Except ε α)) := hx

end Follows

end Fallible

end Nexus
