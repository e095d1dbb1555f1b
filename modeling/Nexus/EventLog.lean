import Mathlib.Data.List.Basic

namespace Nexus

/-- `P` relates every event of a trace, newest first, to the events before it. -/
def EachEvent {α : Type} (P : α → List α → Prop) : List α → Prop
  | [] => True
  | event :: earlier => P event earlier ∧ EachEvent P earlier

theorem eachEvent_iff {α : Type} {P : α → List α → Prop} {log : List α} :
    EachEvent P log ↔ ∀ later event earlier, log = later ++ event :: earlier → P event earlier := by
  induction log with
  | nil => simp [EachEvent]
  | cons head rest ih =>
    simp only [EachEvent, ih]
    constructor
    · rintro ⟨hhead, hrest⟩ (_ | ⟨first, later⟩) event earlier h
      · obtain ⟨rfl, rfl⟩ := List.cons.inj h
        exact hhead
      · exact hrest later event earlier (List.cons.inj h).2
    · intro h
      exact ⟨h [] head rest rfl, fun later event earlier he =>
        h (head :: later) event earlier (by rw [he]; rfl)⟩

end Nexus
