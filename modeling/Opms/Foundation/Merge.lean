import Opms.Foundation.Run
import Mathlib.Order.Lattice
import Mathlib.Data.List.Basic

/-! # Merging by joins

A replica that absorbs each event by joining a value into its state ends in a
state that depends only on which values it met: neither order nor repetition
is visible.
-/

namespace Foundation

universe u v w x

variable {State : Type u} {Event : Type v} [SemilatticeSup State] (value : Event → State)

/-- Absorb the events' values one after another. -/
def absorb (state : State) (events : List Event) : State :=
  events.foldl (fun s e => s ⊔ value e) state

@[simp] theorem absorb_nil (state : State) : absorb value state [] = state := rfl

@[simp] theorem absorb_cons (state : State) (event : Event) (rest : List Event) :
    absorb value state (event :: rest) = absorb value (state ⊔ value event) rest := rfl

theorem absorb_append (state : State) (first second : List Event) :
    absorb value state (first ++ second) = absorb value (absorb value state first) second :=
  List.foldl_append

theorem absorb_le_iff {state bound : State} {events : List Event} :
    absorb value state events ≤ bound ↔ state ≤ bound ∧ ∀ e ∈ events, value e ≤ bound := by
  induction events generalizing state with
  | nil => simp
  | cons event rest ih => simp [ih, and_assoc]

/-- Two event lists that carry the same values lead to the same state. -/
theorem absorb_eq_of_same_values {state : State} {first second : List Event}
    (hfirst : ∀ e ∈ first, ∃ e' ∈ second, value e' = value e)
    (hsecond : ∀ e ∈ second, ∃ e' ∈ first, value e' = value e) :
    absorb value state first = absorb value state second := by
  have hle : ∀ {left right : List Event},
      (∀ e ∈ left, ∃ e' ∈ right, value e' = value e) →
        absorb value state left ≤ absorb value state right := by
    intro left right hsub
    -- joining is a least upper bound: it is enough that every left value is on the right
    have hright := (absorb_le_iff value).mp (le_refl (absorb value state right))
    refine (absorb_le_iff value).mpr ⟨hright.1, ?_⟩
    intro e he
    obtain ⟨e', he', heq⟩ := hsub e he
    exact heq ▸ hright.2 e' he'
  exact le_antisymm (hle hfirst) (hle hsecond)

/-- A machine whose steps absorb the events they emit into a view of its state
ends every admissible run with the view that absorbed all of them. -/
theorem view_run_eq_absorb {Machine : Type w} {Input : Type x}
    {step : Machine → Input → Machine} {emit : Machine → Input → List Event}
    (view : Machine → State) {holds : Machine → Input → Prop} (invariant : Machine → Prop)
    (hstep : ∀ m i, invariant m → holds m i → invariant (step m i))
    (hview : ∀ m i, invariant m → holds m i →
      view (step m i) = absorb value (view m) (emit m i))
    {machine : Machine} {inputs : List Input} (hmachine : invariant machine)
    (halong : Along step holds machine inputs) :
    view (run step machine inputs) =
      absorb value (view machine) (emitted step emit machine inputs) := by
  induction inputs generalizing machine with
  | nil => rfl
  | cons input rest ih =>
      rw [run_cons, emitted_cons, absorb_append, ← hview machine input hmachine halong.1]
      exact ih (hstep machine input hmachine halong.1) halong.2

end Foundation
