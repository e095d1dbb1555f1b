import Mathlib.Data.List.Induction
import Mathlib.Tactic.Common

namespace Nexus

/-! A log in which owners set values under keys and may be cleaned up. -/

inductive LogEntry (ω κ τ : Type) where
  | set (owner : ω) (key : κ) (value : τ)
  | cleanup (owner : ω)
  deriving DecidableEq

namespace LogEntry

variable {ω κ τ : Type}

structure Stands (log : List (LogEntry ω κ τ)) (key : κ) (place : Nat) (owner : ω) (value : τ) :
    Prop where
  entry : log[place]? = some (.set owner key value)
  kept : ∀ later, place < later → log[later]? ≠ some (.cleanup owner)

/-- The value of the most recent set under a key that stands. -/
def Latest (log : List (LogEntry ω κ τ)) (key : κ) (value : τ) : Prop :=
  ∃ place owner, Stands log key place owner value ∧
    ∀ later, place < later → ∀ other found, ¬Stands log key later other found

section Keeping

variable [DecidableEq ω] [DecidableEq κ]

def keep (key : κ) (values : List (ω × τ)) : LogEntry ω κ τ → List (ω × τ)
  | .set owner other value =>
    if other = key then values.filter (fun entry => entry.1 ≠ owner) ++ [(owner, value)] else values
  | .cleanup owner => values.filter fun entry => entry.1 ≠ owner

def surviving (log : List (LogEntry ω κ τ)) (key : κ) : List (ω × τ) := log.foldl (keep key) []

theorem surviving_concat (log : List (LogEntry ω κ τ)) (entry : LogEntry ω κ τ) (key : κ) :
    surviving (log ++ [entry]) key = keep key (surviving log key) entry := by
  unfold surviving
  rw [List.foldl_append]
  rfl

end Keeping

def StandsOutside (owners : List ω) (log : List (LogEntry ω κ τ)) (key : κ) (place : Nat)
    (owner : ω) (value : τ) : Prop :=
  Stands log key place owner value ∧ owner ∉ owners

def LastOutside (owners : List ω) (log : List (LogEntry ω κ τ)) (key : κ) : Option (ω × τ) → Prop
  | some (owner, value) => ∃ place, StandsOutside owners log key place owner value ∧
    ∀ later, place < later → ∀ other found, ¬StandsOutside owners log key later other found
  | none => ∀ place owner value, ¬StandsOutside owners log key place owner value

variable {log : List (LogEntry ω κ τ)} {key : κ} {place : Nat} {owner : ω} {value : τ}

theorem stands_lt (h : Stands log key place owner value) : place < log.length :=
  (List.getElem?_eq_some_iff.mp h.entry).1

theorem concat_past (entry : LogEntry ω κ τ) (h : log.length < place) :
    (log ++ [entry])[place]? = none := by
  refine List.getElem?_eq_none ?_
  rw [List.length_append, List.length_singleton]
  omega

theorem stands_append {entry : LogEntry ω κ τ} (hplace : place < log.length) :
    Stands (log ++ [entry]) key place owner value ↔
      Stands log key place owner value ∧ entry ≠ .cleanup owner := by
  constructor
  · rintro ⟨hentry, hkept⟩
    rw [List.getElem?_append_left hplace] at hentry
    refine ⟨⟨hentry, fun later hlater hcleanup => hkept later hlater ?_⟩, ?_⟩
    · rw [List.getElem?_append_left (List.getElem?_eq_some_iff.mp hcleanup).1]
      exact hcleanup
    · rintro rfl
      exact hkept log.length hplace (by simp)
  · rintro ⟨⟨hentry, hkept⟩, hne⟩
    refine ⟨by rwa [List.getElem?_append_left hplace], fun later hlater hcleanup => ?_⟩
    rcases Nat.lt_trichotomy later log.length with hlt | rfl | hgt
    · rw [List.getElem?_append_left hlt] at hcleanup
      exact hkept later hlater hcleanup
    · rw [List.getElem?_concat_length, Option.some_inj] at hcleanup
      exact hne hcleanup
    · rw [concat_past entry hgt] at hcleanup
      cases hcleanup

theorem stands_concat {entry : LogEntry ω κ τ} :
    Stands (log ++ [entry]) key log.length owner value ↔
      entry = .set owner key value := by
  constructor
  · rintro ⟨hentry, _⟩
    rwa [List.getElem?_concat_length, Option.some_inj] at hentry
  · rintro rfl
    refine ⟨List.getElem?_concat_length, fun later hlater hcleanup => ?_⟩
    rw [concat_past _ hlater] at hcleanup
    cases hcleanup

variable {owners : List ω}

theorem standsOutside_cleanup {cleaned : ω} (place : Nat) (owner : ω) (value : τ) :
    StandsOutside owners (log ++ [.cleanup cleaned]) key place owner value ↔
      StandsOutside (cleaned :: owners) log key place owner value := by
  unfold StandsOutside
  rw [List.mem_cons, not_or]
  by_cases hplace : place < log.length
  · rw [stands_append hplace]
    simp [eq_comm, and_assoc]
  · constructor
    · rintro ⟨hstands, _⟩
      obtain rfl : place = log.length := by
        have hlt := stands_lt hstands
        rw [List.length_append, List.length_singleton] at hlt
        omega
      cases stands_concat.mp hstands
    · rintro ⟨hstands, _⟩
      exact absurd (stands_lt hstands) hplace

theorem standsOutside_set {key' : κ} {setter : ω} {latest : τ} (place : Nat) (owner : ω)
    (value : τ) :
    StandsOutside owners (log ++ [.set setter key' latest]) key place owner value ↔
      StandsOutside owners log key place owner value ∨
        (place = log.length ∧ (setter, key', latest) = (owner, key, value) ∧ setter ∉ owners) := by
  unfold StandsOutside
  rcases Nat.lt_trichotomy place log.length with hlt | rfl | _
  · rw [stands_append hlt]
    have hne : place ≠ log.length := by omega
    simp [hne]
  · have hnone : ¬Stands log key log.length owner value := fun h => absurd (stands_lt h) (by omega)
    rw [stands_concat]
    simp only [hnone, LogEntry.set.injEq, Prod.mk.injEq, false_and, false_or, true_and]
    constructor
    · rintro ⟨⟨rfl, rfl, rfl⟩, howner⟩
      exact ⟨⟨rfl, rfl, rfl⟩, howner⟩
    · rintro ⟨⟨rfl, rfl, rfl⟩, howner⟩
      exact ⟨⟨rfl, rfl, rfl⟩, howner⟩
  · constructor
    · rintro ⟨hstands, _⟩
      have hbound := stands_lt hstands
      rw [List.length_append, List.length_singleton] at hbound
      omega
    · rintro (⟨hstands, _⟩ | ⟨rfl, _⟩)
      · exact absurd (stands_lt hstands) (by omega)
      · omega

theorem LastOutside.congr {owners' : List ω} {log' : List (LogEntry ω κ τ)}
    (h : ∀ place owner value, StandsOutside owners log key place owner value ↔
      StandsOutside owners' log' key place owner value) (last : Option (ω × τ)) :
    LastOutside owners log key last ↔ LastOutside owners' log' key last := by
  cases last with
  | none | some => simp only [LastOutside, h]

variable [DecidableEq ω] [DecidableEq κ]

theorem surviving_lastOutside (log : List (LogEntry ω κ τ)) (key : κ) (owners : List ω) :
    LastOutside owners log key
      ((surviving log key).filter fun entry => entry.1 ∉ owners).getLast? := by
  induction log using List.reverseRecOn generalizing owners with
  | nil => exact fun place owner value h => absurd (stands_lt h.1) (Nat.not_lt_zero place)
  | append_singleton log entry ih =>
    rw [surviving_concat]
    cases entry with
    | cleanup cleaned =>
      rw [LastOutside.congr standsOutside_cleanup]
      have hfilter : ((keep key (surviving log key) (.cleanup cleaned)).filter fun entry =>
          entry.1 ∉ owners) =
            (surviving log key).filter fun entry => entry.1 ∉ cleaned :: owners := by
        unfold keep
        rw [List.filter_filter]
        refine List.filter_congr fun entry _ => ?_
        simp [Bool.and_comm]
      rw [hfilter]
      exact ih (cleaned :: owners)
    | set setter key' latest =>
      by_cases hset : key' = key ∧ setter ∉ owners
      · obtain ⟨rfl, howner⟩ := hset
        have hlast : ((keep key' (surviving log key') (.set setter key' latest)).filter fun entry =>
            entry.1 ∉ owners).getLast? = some (setter, latest) := by
          simp [keep, howner]
        rw [hlast]
        refine ⟨log.length, (standsOutside_set _ _ _).mpr (.inr ⟨rfl, rfl, howner⟩), ?_⟩
        intro later hlater other found hstands
        have hbound := stands_lt hstands.1
        rw [List.length_append, List.length_singleton] at hbound
        omega
      · -- The entry is under another key, or of an owner left out.
        have hsame : ∀ place owner value,
            StandsOutside owners (log ++ [.set setter key' latest]) key place owner value ↔
              StandsOutside owners log key place owner value := by
          intro place owner value
          rw [standsOutside_set]
          refine or_iff_left ?_
          rintro ⟨_, heq, howner⟩
          cases heq
          exact hset ⟨rfl, howner⟩
        rw [LastOutside.congr hsame]
        have hfilter : ((keep key (surviving log key) (.set setter key' latest)).filter fun entry =>
            entry.1 ∉ owners) = (surviving log key).filter fun entry => entry.1 ∉ owners := by
          by_cases hkey : key' = key
          · have howner : setter ∈ owners := by
              by_contra hout
              exact hset ⟨hkey, hout⟩
            simp only [keep, if_pos hkey, List.filter_append, List.filter_filter, List.filter_cons,
              List.filter_nil, howner, not_true_eq_false, decide_false, Bool.false_eq_true,
              if_false, List.append_nil]
            refine List.filter_congr fun entry _ => ?_
            by_cases hentry : entry.1 ∈ owners
            · simp [hentry]
            · have hne : entry.1 ≠ setter := fun h => hentry (h ▸ howner)
              simp [hentry, hne]
          · simp only [keep, if_neg hkey]
        rw [hfilter]
        exact ih owners

theorem surviving_last (log : List (LogEntry ω κ τ)) (key : κ) :
    LastOutside [] log key (surviving log key).getLast? := by
  have hlast := surviving_lastOutside log key []
  have hall : ((surviving log key).filter fun entry => entry.1 ∉ ([] : List ω)) =
      surviving log key := List.filter_eq_self.mpr fun _ _ => by simp
  rw [hall] at hlast
  exact hlast

theorem surviving_latest :
    (∃ owner, (surviving log key).getLast? = some (owner, value)) ↔ Latest log key value := by
  have hlast := surviving_last log key
  constructor
  · rintro ⟨owner, hsome⟩
    rw [hsome] at hlast
    obtain ⟨place, hstands, hlater⟩ := hlast
    exact ⟨place, owner, hstands.1, fun later hafter other found h =>
      hlater later hafter other found ⟨h, List.not_mem_nil⟩⟩
  · rintro ⟨place, owner, hstands, hlater⟩
    cases hsome : (surviving log key).getLast? with
    | none =>
      rw [hsome] at hlast
      exact absurd ⟨hstands, List.not_mem_nil⟩ (hlast place owner value)
    | some entry =>
      obtain ⟨other, found⟩ := entry
      rw [hsome] at hlast
      obtain ⟨place', hstands', hlater'⟩ := hlast
      rcases Nat.lt_trichotomy place place' with hlt | rfl | hlt
      · exact absurd hstands'.1 (hlater place' hlt other found)
      · have heq := hstands.entry.symm.trans hstands'.1.entry
        cases heq
        exact ⟨owner, rfl⟩
      · exact absurd ⟨hstands, List.not_mem_nil⟩ (hlater' place hlt owner value)

theorem surviving_none :
    (surviving log key).getLast? = none ↔
      ∀ place owner value, ¬Stands log key place owner value := by
  have hlast := surviving_last log key
  constructor
  · intro hnone place owner value hstands
    rw [hnone] at hlast
    exact hlast place owner value ⟨hstands, List.not_mem_nil⟩
  · intro hnone
    cases hsome : (surviving log key).getLast? with
    | none => rfl
    | some entry =>
      rw [hsome] at hlast
      obtain ⟨place, hstands, _⟩ := hlast
      exact absurd hstands.1 (hnone place entry.1 entry.2)

end LogEntry

end Nexus
