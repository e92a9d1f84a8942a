import Opms.Foundation.Run
import Mathlib.Data.List.Induction

/-! # Streaks

The streak of a run is its longest end along which a condition holds. One more
input either prolongs the streak or cuts it, so a counter or a start time that
a machine keeps up to date is read off the streak.
-/

namespace Foundation

universe u v

variable {State : Type u} {Input : Type v} (step : State → Input → State)
variable (holds : State → Input → Prop) [∀ state input, Decidable (holds state input)]

/-- The longest end of the run whose inputs all satisfy `holds` in the states
they meet. -/
def streak : State → List Input → List Input
  | _, [] => []
  | state, input :: rest =>
      if Along step holds state (input :: rest) then input :: rest
      else streak (step state input) rest

@[simp] theorem streak_nil (state : State) : streak step holds state [] = [] := rfl

theorem streak_of_along {state : State} {inputs : List Input}
    (halong : Along step holds state inputs) : streak step holds state inputs = inputs := by
  cases inputs with
  | nil => rfl
  | cons input rest => exact if_pos halong

theorem streak_concat (state : State) (inputs : List Input) (input : Input) :
    streak step holds state (inputs ++ [input]) =
      if holds (run step state inputs) input then streak step holds state inputs ++ [input]
      else [] := by
  induction inputs generalizing state with
  | nil =>
      by_cases hinput : holds state input
      · rw [run_nil, if_pos hinput]
        exact streak_of_along step holds ⟨hinput, trivial⟩
      · rw [run_nil, if_neg hinput]
        exact if_neg fun halong => hinput halong.1
  | cons first rest ih =>
      have hsplit : Along step holds state (first :: (rest ++ [input])) ↔
          Along step holds state (first :: rest) ∧
            holds (run step (step state first) rest) input := by
        rw [← List.cons_append, Along.append_iff]
        simp [Along]
      rw [List.cons_append, streak, streak, run_cons]
      by_cases hlast : holds (run step (step state first) rest) input
      · by_cases hrest : Along step holds state (first :: rest)
        · rw [if_pos (hsplit.mpr ⟨hrest, hlast⟩), if_pos hlast, if_pos hrest, List.cons_append]
        · rw [if_neg fun halong => hrest (hsplit.mp halong).1, if_neg hrest, ih]
      · rw [if_neg fun halong => hlast (hsplit.mp halong).2, ih, if_neg hlast, if_neg hlast]

/-- The streak ends the run, and the condition holds along it. -/
theorem exists_streak (state : State) (inputs : List Input) :
    ∃ before, inputs = before ++ streak step holds state inputs ∧
      Along step holds (run step state before) (streak step holds state inputs) := by
  induction inputs generalizing state with
  | nil => exact ⟨[], rfl, trivial⟩
  | cons input rest ih =>
      rw [streak]
      split
      next halong => exact ⟨[], rfl, halong⟩
      next =>
        obtain ⟨before, hsplit, halong⟩ := ih (step state input)
        exact ⟨input :: before, congrArg (input :: ·) hsplit, halong⟩

/-- An end along which the condition holds prolongs the streak before it. -/
theorem streak_append {state : State} (first : List Input) {last : List Input}
    (halong : Along step holds (run step state first) last) :
    streak step holds state (first ++ last) = streak step holds state first ++ last := by
  induction last using List.reverseRecOn with
  | nil => simp
  | append_singleton last input ih =>
      obtain ⟨hlast, hinput, -⟩ := Along.append_iff.mp halong
      rw [← run_append] at hinput
      rw [← List.append_assoc, streak_concat, if_pos hinput, ih hlast, List.append_assoc]

end Foundation
