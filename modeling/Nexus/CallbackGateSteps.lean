import Nexus.CallbackGate
import Mathlib.Algebra.BigOperators.Group.Finset.Piecewise
import Mathlib.Algebra.Order.BigOperators.Group.Finset
import Mathlib.Data.Fintype.Basic

namespace Nexus

/-- What `fetch_sub` leaves of a 64-bit counter. -/
def counterSub (count : Nat) : Nat := if count = 0 then 2 ^ 64 - 1 else count - 1

/-- The atomics of a gate and its drain mutex. A unit of the counter is a guard held in memory or
a thread inside `try_enter`, so counting up stays far from the end of the counter. -/
structure GateMemory extends CallbackGate where
  locked : Bool

inductive GatePc where
  | idle
  /-- `try_enter`: the first check saw the gate open. -/
  | checked
  | counted
  /-- `try_enter`: the second check saw the gate closed. -/
  | refused
  /-- `leave` took the count from one to zero. -/
  | emptied
  | notifying
  | notified
  | closing (wasAccepting : Bool)
  | waitCalled
  | lockingWait
  | polling
  | deciding
  | parked
  | woken (timedOut : Bool)
  | expired
  | unlockingWait (drained : Bool)
  | returning (drained : Bool)
  deriving DecidableEq

structure GateThread where
  pc : GatePc
  guards : Nat

inductive GateEvent where
  | silent
  | admitted
  | closeReturned (wasAccepting : Bool)
  | notifyAll
  | waitCalled
  | waitReturned (drained : Bool)
  deriving DecidableEq

def afterLeave (previous : Nat) : GatePc := if previous = 1 then .emptied else .idle

/-- One atomic step of one thread. The clock and the wake-ups of the condition variable are free:
a parked thread may wake at any time, timed out or not. -/
inductive ThreadStep : GateMemory → GateThread → GateEvent → GateMemory → GateThread → Prop
  | enterClosed {m : GateMemory} {guards : Nat} : m.accepting = false →
      ThreadStep m ⟨.idle, guards⟩ .silent m ⟨.idle, guards⟩
  | enterOpen {m : GateMemory} {guards : Nat} : m.accepting = true →
      ThreadStep m ⟨.idle, guards⟩ .silent m ⟨.checked, guards⟩
  | count {m : GateMemory} {guards : Nat} :
      ThreadStep m ⟨.checked, guards⟩ .silent { m with inFlight := m.inFlight + 1 }
        ⟨.counted, guards⟩
  | confirm {m : GateMemory} {guards : Nat} : m.accepting = true →
      ThreadStep m ⟨.counted, guards⟩ .admitted m ⟨.idle, guards + 1⟩
  | refuse {m : GateMemory} {guards : Nat} : m.accepting = false →
      ThreadStep m ⟨.counted, guards⟩ .silent m ⟨.refused, guards⟩
  | backOut {m : GateMemory} {guards : Nat} :
      ThreadStep m ⟨.refused, guards⟩ .silent { m with inFlight := counterSub m.inFlight }
        ⟨afterLeave m.inFlight, guards⟩
  | dropGuard {m : GateMemory} {guards : Nat} :
      ThreadStep m ⟨.idle, guards + 1⟩ .silent { m with inFlight := counterSub m.inFlight }
        ⟨afterLeave m.inFlight, guards⟩
  | lockNotify {m : GateMemory} {guards : Nat} : m.locked = false →
      ThreadStep m ⟨.emptied, guards⟩ .silent { m with locked := true } ⟨.notifying, guards⟩
  | notify {m : GateMemory} {guards : Nat} :
      ThreadStep m ⟨.notifying, guards⟩ .notifyAll m ⟨.notified, guards⟩
  | unlockNotify {m : GateMemory} {guards : Nat} :
      ThreadStep m ⟨.notified, guards⟩ .silent { m with locked := false } ⟨.idle, guards⟩
  | swap {m : GateMemory} {guards : Nat} :
      ThreadStep m ⟨.idle, guards⟩ .silent { m with accepting := false }
        ⟨.closing m.accepting, guards⟩
  | closeReturn {m : GateMemory} {guards : Nat} {wasAccepting : Bool} :
      ThreadStep m ⟨.closing wasAccepting, guards⟩ (.closeReturned wasAccepting) m ⟨.idle, guards⟩
  | callWait {m : GateMemory} {guards : Nat} :
      ThreadStep m ⟨.idle, guards⟩ .waitCalled m ⟨.waitCalled, guards⟩
  | firstLoad {m : GateMemory} {guards : Nat} :
      ThreadStep m ⟨.waitCalled, guards⟩ .silent m
        ⟨if m.inFlight = 0 then .returning true else .lockingWait, guards⟩
  | lockWait {m : GateMemory} {guards : Nat} : m.locked = false →
      ThreadStep m ⟨.lockingWait, guards⟩ .silent { m with locked := true } ⟨.polling, guards⟩
  | poll {m : GateMemory} {guards : Nat} :
      ThreadStep m ⟨.polling, guards⟩ .silent m
        ⟨if m.inFlight = 0 then .unlockingWait true else .deciding, guards⟩
  | timeOver {m : GateMemory} {guards : Nat} :
      ThreadStep m ⟨.deciding, guards⟩ .silent m ⟨.unlockingWait false, guards⟩
  | park {m : GateMemory} {guards : Nat} :
      ThreadStep m ⟨.deciding, guards⟩ .silent { m with locked := false } ⟨.parked, guards⟩
  | wake {m : GateMemory} {guards : Nat} (timedOut : Bool) :
      ThreadStep m ⟨.parked, guards⟩ .silent m ⟨.woken timedOut, guards⟩
  | relock {m : GateMemory} {guards : Nat} {timedOut : Bool} : m.locked = false →
      ThreadStep m ⟨.woken timedOut, guards⟩ .silent { m with locked := true }
        ⟨if timedOut then .expired else .polling, guards⟩
  | lastLoad {m : GateMemory} {guards : Nat} :
      ThreadStep m ⟨.expired, guards⟩ .silent m ⟨.unlockingWait (m.inFlight = 0), guards⟩
  | unlockWait {m : GateMemory} {guards : Nat} {drained : Bool} :
      ThreadStep m ⟨.unlockingWait drained, guards⟩ .silent { m with locked := false }
        ⟨.returning drained, guards⟩
  | waitReturn {m : GateMemory} {guards : Nat} {drained : Bool} :
      ThreadStep m ⟨.returning drained, guards⟩ (.waitReturned drained) m ⟨.idle, guards⟩

namespace GateThread

/-- Between the increment of `try_enter` and its second check, or its back-out. -/
def Entering (thread : GateThread) : Prop := thread.pc = .counted ∨ thread.pc = .refused

instance (thread : GateThread) : Decidable thread.Entering := inferInstanceAs (Decidable (_ ∨ _))

def tickets (thread : GateThread) : Nat := thread.guards + if thread.Entering then 1 else 0

def SawDrained (thread : GateThread) : Prop :=
  thread.pc = .unlockingWait true ∨ thread.pc = .returning true

def wakened (thread : GateThread) : GateThread :=
  if thread.pc = .parked then ⟨.woken false, thread.guards⟩ else thread

end GateThread

namespace ThreadStep

open GateThread

variable {m m' : GateMemory} {thread thread' : GateThread} {event : GateEvent}

@[simp] theorem tickets_counted (guards : Nat) :
    (⟨.counted, guards⟩ : GateThread).tickets = guards + 1 := rfl

@[simp] theorem tickets_refused (guards : Nat) :
    (⟨.refused, guards⟩ : GateThread).tickets = guards + 1 := rfl

theorem tickets_eq_guards {pc : GatePc} (hc : pc ≠ .counted) (hr : pc ≠ .refused) (guards : Nat) :
    (⟨pc, guards⟩ : GateThread).tickets = guards := by
  simp [tickets, Entering, hc, hr]

@[simp] theorem tickets_afterLeave (previous guards : Nat) :
    (⟨afterLeave previous, guards⟩ : GateThread).tickets = guards := by
  refine tickets_eq_guards ?_ ?_ guards <;> unfold afterLeave <;> split <;> simp

theorem tickets_eq (h : ThreadStep m thread event m' thread')
    (hle : thread.tickets ≤ m.inFlight) :
    m'.inFlight + thread.tickets = m.inFlight + thread'.tickets := by
  cases h with
  | @count guards =>
    have hbefore := tickets_eq_guards (show GatePc.checked ≠ .counted by simp) (by simp) guards
    rw [hbefore, tickets_counted]
    simp only
    omega
  | @confirm guards =>
    have hafter := tickets_eq_guards (show GatePc.idle ≠ .counted by simp) (by simp) (guards + 1)
    rw [hafter, tickets_counted]
  | @backOut =>
    rw [tickets_refused] at hle ⊢
    have hpos : m.inFlight ≠ 0 := by omega
    rw [tickets_afterLeave]
    simp only [counterSub, if_neg hpos]
    omega
  | @dropGuard guards =>
    have hbefore := tickets_eq_guards (show GatePc.idle ≠ .counted by simp) (by simp) (guards + 1)
    rw [hbefore] at hle ⊢
    have hpos : m.inFlight ≠ 0 := by omega
    rw [tickets_afterLeave]
    simp only [counterSub, if_neg hpos]
    omega
  | refuse => rw [tickets_counted, tickets_refused]
  | @firstLoad | @poll | @relock =>
    rw [tickets_eq_guards (by simp) (by simp), tickets_eq_guards]
    all_goals split <;> simp
  | _ => simp [tickets, Entering]

theorem closed (h : ThreadStep m thread event m' thread') (hc : m.accepting = false) :
    m'.accepting = false := by
  cases h <;> first | exact hc | rfl

theorem guards_le (h : ThreadStep m thread event m' thread') (hc : m.accepting = false) :
    thread'.guards ≤ thread.guards ∧ event ≠ .admitted := by
  cases h with
  | confirm ha =>
    rw [hc] at ha
    cases ha
  | dropGuard => exact ⟨Nat.le_succ _, by simp⟩
  | _ => exact ⟨Nat.le_refl _, by simp⟩

theorem sawDrained (h : ThreadStep m thread event m' thread') (hs : thread'.SawDrained) :
    thread.SawDrained ∨ m.inFlight = 0 := by
  cases h with
  | firstLoad | poll =>
    refine Or.inr ?_
    by_contra hne
    simp [SawDrained, hne] at hs
  | relock =>
    simp only [SawDrained] at hs
    split at hs <;> simp at hs
  | lastLoad => simpa [SawDrained] using hs
  | unlockWait => exact Or.inl (by simpa [SawDrained] using hs)
  | backOut | dropGuard =>
    simp only [SawDrained, afterLeave] at hs
    split at hs <;> simp at hs
  | _ => simp [SawDrained] at hs

theorem closing_accepting (h : ThreadStep m thread event m' thread') {wasAccepting : Bool}
    (hpc : thread'.pc = .closing wasAccepting) : m'.accepting = false := by
  cases h with
  | swap => rfl
  | firstLoad | poll | relock | backOut | dropGuard =>
    simp only [afterLeave] at hpc
    split at hpc <;> cases hpc
  | _ => cases hpc

theorem closeReturned_pc (h : ThreadStep m thread (.closeReturned wasAccepting) m' thread') :
    thread.pc = .closing wasAccepting ∧ m' = m := by
  cases h
  exact ⟨rfl, rfl⟩

theorem waitReturned_pc {drained : Bool} (h : ThreadStep m thread (.waitReturned drained) m' thread') :
    thread.pc = .returning drained ∧ m' = m ∧ thread'.guards = thread.guards := by
  cases h
  exact ⟨rfl, rfl, rfl⟩

theorem waitCalled_pc (h : ThreadStep m thread .waitCalled m' thread') :
    thread'.pc = .waitCalled ∧ m' = m := by
  cases h
  exact ⟨rfl, rfl⟩

end ThreadStep

structure GateSystem (Thread : Type) where
  memory : GateMemory
  threads : Thread → GateThread

namespace GateSystem

open GateThread

variable {Thread : Type}

def start : GateSystem Thread := ⟨⟨.opened, false⟩, fun _ => ⟨.idle, 0⟩⟩

/-- A `notify_all` reaches the parked threads at once. -/
def delivered (threads : Thread → GateThread) (event : GateEvent) : Thread → GateThread :=
  if event = .notifyAll then fun thread => (threads thread).wakened else threads

inductive Step [DecidableEq Thread] :
    GateSystem Thread → Thread × GateEvent → GateSystem Thread → Prop
  | by_thread {s : GateSystem Thread} {t : Thread} {event : GateEvent} {memory : GateMemory}
      {thread : GateThread} : ThreadStep s.memory (s.threads t) event memory thread →
      Step s (t, event) ⟨memory, Function.update (delivered s.threads event) t thread⟩

inductive Run [DecidableEq Thread] :
    GateSystem Thread → List (Thread × GateEvent) → GateSystem Thread → Prop
  | nil {s : GateSystem Thread} : Run s [] s
  | cons {s s' s'' : GateSystem Thread} {event : Thread × GateEvent}
      {events : List (Thread × GateEvent)} : Step s event s' → Run s' events s'' →
      Run s (event :: events) s''

def liveGuards [Fintype Thread] (s : GateSystem Thread) : Nat :=
  Finset.univ.sum fun t => (s.threads t).guards

def entering [Fintype Thread] (s : GateSystem Thread) : Nat :=
  (Finset.univ.filter fun t => (s.threads t).Entering).card

/-- A thread that takes one from the counter in its next step. -/
def Leaving (thread : GateThread) : Prop :=
  thread.pc = .refused ∨ thread.pc = .idle ∧ 0 < thread.guards

@[simp] theorem wakened_tickets (thread : GateThread) : thread.wakened.tickets = thread.tickets := by
  unfold wakened
  split
  next h => simp [tickets, Entering, h]
  next => rfl

@[simp] theorem delivered_tickets (threads : Thread → GateThread) (event : GateEvent) (t : Thread) :
    (delivered threads event t).tickets = (threads t).tickets := by
  unfold delivered
  split
  · exact wakened_tickets _
  · rfl

@[simp] theorem wakened_guards (thread : GateThread) : thread.wakened.guards = thread.guards := by
  unfold wakened
  split <;> rfl

theorem wakened_pc {thread : GateThread} {pc : GatePc} (h : thread.wakened.pc = pc)
    (hw : pc ≠ .woken false) : thread.pc = pc := by
  unfold wakened at h
  split at h
  · exact absurd h.symm hw
  · exact h

theorem delivered_guards (threads : Thread → GateThread) (event : GateEvent) (t : Thread) :
    (delivered threads event t).guards = (threads t).guards := by
  unfold delivered
  split
  · exact wakened_guards _
  · rfl

theorem delivered_pc {threads : Thread → GateThread} {event : GateEvent} {t : Thread} {pc : GatePc}
    (h : (delivered threads event t).pc = pc) (hw : pc ≠ .woken false) : (threads t).pc = pc := by
  unfold delivered at h
  split at h
  · exact wakened_pc h hw
  · exact h

section Counted

variable [Fintype Thread] {s s' : GateSystem Thread}

def Counted (s : GateSystem Thread) : Prop :=
  s.memory.inFlight = Finset.univ.sum fun t => (s.threads t).tickets

theorem counted_start : (start : GateSystem Thread).Counted := by
  simp [Counted, start, CallbackGate.opened, tickets, Entering]

theorem Counted.step [DecidableEq Thread] {event : Thread × GateEvent} (h : s.Counted) (hs : Step s event s') :
    s'.Counted := by
  cases hs with
  | @by_thread t event _ thread hstep =>
    have hold := Finset.add_sum_erase Finset.univ (fun u => (s.threads u).tickets)
      (Finset.mem_univ t)
    have hnew := Finset.add_sum_erase Finset.univ (fun u =>
      (Function.update (delivered s.threads event) t thread u).tickets) (Finset.mem_univ t)
    have hothers : ∀ u ∈ Finset.univ.erase t,
        (Function.update (delivered s.threads event) t thread u).tickets =
          (s.threads u).tickets := by
      intro u hu
      rw [Function.update_of_ne (Finset.ne_of_mem_erase hu), delivered_tickets]
    rw [Finset.sum_congr rfl hothers] at hnew
    simp only [Function.update_self] at hnew
    unfold Counted at h ⊢
    have hmoved := hstep.tickets_eq (by omega)
    simp only
    omega

theorem Counted.eq_guards_add_entering (h : s.Counted) :
    s.memory.inFlight = s.liveGuards + s.entering := by
  rw [h, liveGuards, entering, Finset.card_filter, ← Finset.sum_add_distrib]
  rfl

theorem Counted.pos_of_leaving (h : s.Counted) {t : Thread} (hl : Leaving (s.threads t)) :
    0 < s.memory.inFlight := by
  have hle := Finset.single_le_sum (f := fun u => (s.threads u).tickets)
    (fun _ _ => Nat.zero_le _) (Finset.mem_univ t)
  have hpos : 0 < (s.threads t).tickets := by
    rcases hl with hpc | ⟨-, _⟩
    · simp [tickets, Entering, hpc]
    · simp only [tickets]
      omega
  exact h ▸ lt_of_lt_of_le hpos hle

theorem Counted.no_guards (h : s.Counted) (hzero : s.memory.inFlight = 0) (t : Thread) :
    (s.threads t).guards = 0 := by
  by_contra hne
  have hle := Finset.single_le_sum (f := fun u => (s.threads u).tickets)
    (fun _ _ => Nat.zero_le _) (Finset.mem_univ t)
  simp only [tickets] at hle
  have heq := h
  simp only [Counted, tickets] at heq
  omega

end Counted

section Runs

variable [DecidableEq Thread] {s s' : GateSystem Thread} {events : List (Thread × GateEvent)}

theorem Counted.run [Fintype Thread] (h : s.Counted) (hr : Run s events s') : s'.Counted := by
  induction hr with
  | nil => exact h
  | cons hs _ ih => exact ih (h.step hs)

theorem Step.closed {event : Thread × GateEvent} (h : Step s event s')
    (hc : s.memory.accepting = false) : s'.memory.accepting = false := by
  cases h with
  | by_thread hstep => exact hstep.closed hc

theorem Run.closed (h : Run s events s') (hc : s.memory.accepting = false) :
    s'.memory.accepting = false := by
  induction h with
  | nil => exact hc
  | cons hs _ ih => exact ih (hs.closed hc)

theorem Step.no_guards {t : Thread} {event : GateEvent} (h : Step s (t, event) s')
    (hc : s.memory.accepting = false) (hg : ∀ u, (s.threads u).guards = 0) :
    (∀ u, (s'.threads u).guards = 0) ∧ event ≠ .admitted := by
  cases h with
  | by_thread hstep =>
    obtain ⟨_, hevent⟩ := hstep.guards_le hc
    refine ⟨fun u => ?_, hevent⟩
    by_cases heq : u = t
    · subst heq
      have hzero := hg u
      simp only [Function.update_self]
      omega
    · simp only [Function.update_of_ne heq, delivered_guards]
      exact hg u

theorem Run.no_guards (h : Run s events s') (hc : s.memory.accepting = false)
    (hg : ∀ u, (s.threads u).guards = 0) :
    (∀ u, (s'.threads u).guards = 0) ∧ ∀ u, (u, GateEvent.admitted) ∉ events := by
  induction h with
  | nil => exact ⟨hg, fun _ => List.not_mem_nil⟩
  | @cons _ _ _ event _ hs _ ih =>
    obtain ⟨_, event⟩ := event
    obtain ⟨hg', hne⟩ := hs.no_guards hc hg
    obtain ⟨hend, hlater⟩ := ih (hs.closed hc) hg'
    refine ⟨hend, fun u hm => ?_⟩
    rcases List.mem_cons.mp hm with heq | hm
    · exact hne (Prod.mk.inj heq).2.symm
    · exact hlater u hm

/-- A thread that has swapped the flag and not yet returned finds the gate closed. -/
def ClosersSwapped (s : GateSystem Thread) : Prop :=
  ∀ t wasAccepting, (s.threads t).pc = .closing wasAccepting → s.memory.accepting = false

theorem ClosersSwapped.step {event : Thread × GateEvent} (h : s.ClosersSwapped)
    (hs : Step s event s') : s'.ClosersSwapped := by
  intro u wasAccepting hpc
  cases hs with
  | @by_thread t _ _ _ hstep =>
    by_cases heq : u = t
    · subst heq
      simp only [Function.update_self] at hpc
      exact hstep.closing_accepting hpc
    · simp only [Function.update_of_ne heq] at hpc
      exact hstep.closed (h u wasAccepting (delivered_pc hpc (by simp)))

theorem Run.closed_of_closeReturned (h : Run s events s') (hc : s.ClosersSwapped)
    {closer : Thread} {wasAccepting : Bool}
    (hm : (closer, GateEvent.closeReturned wasAccepting) ∈ events) :
    s'.memory.accepting = false := by
  induction h with
  | nil => cases hm
  | @cons _ _ _ _ _ hs hr ih =>
    rcases List.mem_cons.mp hm with rfl | hm
    · refine hr.closed (hs.closed ?_)
      cases hs with
      | by_thread hstep => exact hc closer wasAccepting hstep.closeReturned_pc.1
    · exact ih (hc.step hs) hm

/-- Once `t` has seen the count at zero behind the closed gate, no guard is alive. -/
def DrainSeen (s : GateSystem Thread) (t : Thread) : Prop :=
  (s.threads t).SawDrained → ∀ u, (s.threads u).guards = 0

theorem DrainSeen.step [Fintype Thread] {t : Thread} {event : Thread × GateEvent}
    (h : s.DrainSeen t) (hcount : s.Counted) (hc : s.memory.accepting = false)
    (hs : Step s event s') : s'.DrainSeen t := by
  intro hseen
  have hguards : ∀ u, (s.threads u).guards = 0 := by
    cases hs with
    | @by_thread actor _ _ _ hstep =>
      by_cases heq : t = actor
      · subst heq
        simp only [Function.update_self] at hseen
        rcases hstep.sawDrained hseen with hbefore | hzero
        · exact h hbefore
        · exact hcount.no_guards hzero
      · simp only [Function.update_of_ne heq] at hseen
        refine h ?_
        rcases hseen with hpc | hpc
        · exact Or.inl (delivered_pc hpc (by simp))
        · exact Or.inr (delivered_pc hpc (by simp))
  obtain ⟨actor, event⟩ := event
  exact (hs.no_guards hc hguards).1

theorem DrainSeen.run [Fintype Thread] {t : Thread} (h : s.DrainSeen t) (hcount : s.Counted)
    (hc : s.memory.accepting = false) (hr : Run s events s') : s'.DrainSeen t := by
  induction hr with
  | nil => exact h
  | cons hs _ ih => exact ih (h.step hcount hc hs) (hcount.step hs) (hs.closed hc)

/-- In every interleaving the counter is the live guards with the threads between their increment
and their second check or back-out, it is positive whenever one is about to be taken from it, and
a drain that was called after a close returned and that returns true leaves no guard alive and
none to come. -/
theorem callback_gate_drain_safety [Fintype Thread] :
    (∀ (events : List (Thread × GateEvent)) (s : GateSystem Thread), Run start events s →
      s.memory.inFlight = s.liveGuards + s.entering ∧
        ∀ t, Leaving (s.threads t) → 0 < s.memory.inFlight) ∧
      ∀ (before : List (Thread × GateEvent)) (closer : Thread) (wasAccepting : Bool)
        (s₁ s₂ s₃ s₄ : GateSystem Thread) (t : Thread) (during : List (Thread × GateEvent)),
        Run start before s₁ → (closer, GateEvent.closeReturned wasAccepting) ∈ before →
        Step s₁ (t, .waitCalled) s₂ → Run s₂ during s₃ →
        Step s₃ (t, .waitReturned true) s₄ →
        (∀ u, (s₄.threads u).guards = 0) ∧
          ∀ (later : List (Thread × GateEvent)) (s₅ : GateSystem Thread), Run s₄ later s₅ →
            (∀ u, (s₅.threads u).guards = 0) ∧ ∀ u, (u, GateEvent.admitted) ∉ later := by
  refine ⟨fun events s hr => ?_, ?_⟩
  · have hcount : s.Counted := counted_start.run hr
    exact ⟨hcount.eq_guards_add_entering, fun t hl => hcount.pos_of_leaving hl⟩
  intro before closer wasAccepting s₁ s₂ s₃ s₄ t during hbefore hclose hcall hduring hreturn
  have hc₁ : s₁.memory.accepting = false :=
    hbefore.closed_of_closeReturned (fun _ _ hpc => by cases hpc) hclose
  have hcount₂ : s₂.Counted := (counted_start.run hbefore).step hcall
  have hc₂ := hcall.closed hc₁
  have hseen₂ : s₂.DrainSeen t := by
    intro hseen
    cases hcall with
    | by_thread hstep =>
      simp [SawDrained, hstep.waitCalled_pc.1] at hseen
  have hseen₃ := hseen₂.run hcount₂ hc₂ hduring
  have hc₃ := hduring.closed hc₂
  have hguards₃ : ∀ u, (s₃.threads u).guards = 0 := by
    refine hseen₃ (Or.inr ?_)
    cases hreturn with
    | by_thread hstep => exact hstep.waitReturned_pc.1
  have hguards₄ := (hreturn.no_guards hc₃ hguards₃).1
  exact ⟨hguards₄, fun later s₅ hl => hl.no_guards (hreturn.closed hc₃) hguards₄⟩

end Runs

end GateSystem

end Nexus
