import Mathlib.Algebra.Group.Basic
import Mathlib.Algebra.Order.Monoid.Unbundled.Basic
import Mathlib.Data.List.Basic

/-! # Runs of deterministic machines

A machine is a step function fed with a list of inputs, oldest first. Side
conditions on inputs, invariants of states, and costs charged by steps are all
read along the run, so a property of one step lifts to every run once.
-/

namespace Foundation

universe u v w

variable {State : Type u} {Input : Type v} (step : State → Input → State)

/-- The state reached from `state` after all inputs. -/
def run (state : State) (inputs : List Input) : State :=
  inputs.foldl step state

@[simp] theorem run_nil (state : State) : run step state [] = state := rfl

@[simp] theorem run_cons (state : State) (input : Input) (rest : List Input) :
    run step state (input :: rest) = run step (step state input) rest := rfl

@[simp] theorem run_append (state : State) (first second : List Input) :
    run step state (first ++ second) = run step (run step state first) second :=
  List.foldl_append

/-- Every input satisfies `holds` in the state that input meets. -/
def Along (holds : State → Input → Prop) : State → List Input → Prop
  | _, [] => True
  | state, input :: rest => holds state input ∧ Along holds (step state input) rest

instance Along.decidable (holds : State → Input → Prop)
    [∀ state input, Decidable (holds state input)] :
    ∀ state inputs, Decidable (Along step holds state inputs)
  | _, [] => .isTrue trivial
  | state, input :: rest =>
      have := Along.decidable holds (step state input) rest
      inferInstanceAs (Decidable (holds state input ∧ _))

namespace Along

variable {step} {holds other : State → Input → Prop}

theorem append_iff {state : State} {first second : List Input} :
    Along step holds state (first ++ second) ↔
      Along step holds state first ∧ Along step holds (run step state first) second := by
  induction first generalizing state with
  | nil => simp [Along]
  | cons input rest ih =>
      simp only [List.cons_append, Along, run_cons, ih]
      exact and_assoc.symm

theorem mono (himp : ∀ state input, holds state input → other state input)
    {state : State} {inputs : List Input} (halong : Along step holds state inputs) :
    Along step other state inputs := by
  induction inputs generalizing state with
  | nil => trivial
  | cons input rest ih => exact ⟨himp state input halong.1, ih halong.2⟩

theorem both {state : State} {inputs : List Input} (hholds : Along step holds state inputs)
    (hother : Along step other state inputs) :
    Along step (fun state input => holds state input ∧ other state input) state inputs := by
  induction inputs generalizing state with
  | nil => trivial
  | cons input rest ih => exact ⟨⟨hholds.1, hother.1⟩, ih hholds.2 hother.2⟩

/-- A condition on the inputs alone. -/
theorem iff_forall_mem {legal : Input → Prop} {state : State} {inputs : List Input} :
    Along step (fun _ input => legal input) state inputs ↔ ∀ input ∈ inputs, legal input := by
  induction inputs generalizing state with
  | nil => simp [Along]
  | cons input rest ih => simp only [Along, ih, List.forall_mem_cons]

/-- A condition that fails along a run fails at some input of it. -/
theorem not_iff_exists {state : State} {inputs : List Input} :
    ¬ Along step holds state inputs ↔ ∃ before input after,
      inputs = before ++ input :: after ∧ ¬ holds (run step state before) input := by
  constructor
  · intro hnot
    induction inputs generalizing state with
    | nil => exact absurd trivial hnot
    | cons input rest ih =>
        by_cases hhead : holds state input
        · obtain ⟨before, later, after, rfl, hlater⟩ := ih fun hrest => hnot ⟨hhead, hrest⟩
          exact ⟨input :: before, later, after, rfl, hlater⟩
        · exact ⟨[], input, rest, rfl, hhead⟩
  · rintro ⟨before, input, after, rfl, hnot⟩ halong
    exact hnot (append_iff.mp halong).2.1

end Along

variable {step}

/-- Two conditions that agree on every step from a state with the invariant
agree along a run, if a step that meets them keeps the invariant. -/
theorem Along.congr_of_invariant {legal first second : State → Input → Prop}
    (invariant : State → Prop)
    (hiff : ∀ state input, invariant state → legal state input →
      (first state input ↔ second state input))
    (hkeep : ∀ state input, invariant state → legal state input → first state input →
      invariant (step state input))
    {state : State} {inputs : List Input} (hstate : invariant state)
    (hlegal : Along step legal state inputs) :
    Along step first state inputs ↔ Along step second state inputs := by
  induction inputs generalizing state with
  | nil => exact Iff.rfl
  | cons input rest ih =>
      have hhead := hiff state input hstate hlegal.1
      constructor
      · rintro ⟨hfirst, hrest⟩
        exact ⟨hhead.mp hfirst, (ih (hkeep state input hstate hlegal.1 hfirst) hlegal.2).mp hrest⟩
      · rintro ⟨hsecond, hrest⟩
        have hfirst := hhead.mpr hsecond
        exact ⟨hfirst, (ih (hkeep state input hstate hlegal.1 hfirst) hlegal.2).mpr hrest⟩

/-- A property of the first state holds in every state reached iff every step
leads to it. -/
theorem Along.iff_reached {reached : State → Prop} {state : State} {inputs : List Input}
    (hstate : reached state) :
    (∀ before after, inputs = before ++ after → reached (run step state before)) ↔
      Along step (fun state input => reached (step state input)) state inputs := by
  induction inputs generalizing state with
  | nil =>
      refine ⟨fun _ => trivial, fun _ before after heq => ?_⟩
      rw [(List.append_eq_nil_iff.mp heq.symm).1]
      exact hstate
  | cons input rest ih =>
      constructor
      · intro hall
        have hnext : reached (step state input) := hall [input] rest rfl
        refine ⟨hnext, (ih hnext).mp fun before after heq => ?_⟩
        exact hall (input :: before) after (by rw [heq, List.cons_append])
      · rintro ⟨hnext, hrest⟩ before after heq
        cases before with
        | nil => exact hstate
        | cons input' before =>
            obtain ⟨rfl, rfl⟩ := List.cons.inj heq
            exact (ih hnext).mpr hrest before after rfl

/-- A preorder that every step respects relates the ends of the run. -/
theorem Along.ordered {order : State → State → Prop} (hrefl : ∀ state, order state state)
    (htrans : ∀ {first second third}, order first second → order second third →
      order first third) {state : State} {inputs : List Input}
    (halong : Along step (fun state input => order state (step state input)) state inputs) :
    order state (run step state inputs) := by
  induction inputs generalizing state with
  | nil => exact hrefl state
  | cons input rest ih => exact htrans halong.1 (ih halong.2)

/-- A preorder on states relates every two moments of a run, the earlier one
first, iff every step respects it. -/
theorem Along.iff_ordered {order : State → State → Prop} (hrefl : ∀ state, order state state)
    (htrans : ∀ {first second third}, order first second → order second third →
      order first third) {state : State} {inputs : List Input} :
    (∀ before middle after, inputs = before ++ middle ++ after →
        order (run step state before) (run step state (before ++ middle))) ↔
      Along step (fun state input => order state (step state input)) state inputs := by
  constructor
  · intro hall
    induction inputs generalizing state with
    | nil => trivial
    | cons input rest ih =>
        refine ⟨hall [] [input] rest rfl, ih fun before middle after heq => ?_⟩
        exact hall (input :: before) middle after (by rw [heq]; rfl)
  · rintro halong before middle after rfl
    rw [run_append]
    exact (Along.append_iff.mp (Along.append_iff.mp halong).1).2.ordered hrefl htrans

/-- Two conditions that agree on every step agree along a run. -/
theorem Along.congr {first second : State → Input → Prop}
    (hiff : ∀ state input, first state input ↔ second state input) {state : State}
    {inputs : List Input} : Along step first state inputs ↔ Along step second state inputs :=
  ⟨Along.mono fun state input => (hiff state input).mp,
    Along.mono fun state input => (hiff state input).mpr⟩

/-- Where `holds` says which steps keep the invariant, given what every admissible
run supports, it holds along a run iff the invariant does in every state reached. -/
theorem Along.iff_throughout_of {legal holds : State → Input → Prop}
    (support invariant : State → Prop)
    (hsupport : ∀ state input, support state → legal state input → support (step state input))
    (hstep : ∀ state input, support state → invariant state → legal state input →
      (invariant (step state input) ↔ holds state input))
    {state : State} {inputs : List Input} (hstart : support state) (hstate : invariant state)
    (hlegal : Along step legal state inputs) :
    (∀ before after, inputs = before ++ after → invariant (run step state before)) ↔
      Along step holds state inputs :=
  (Along.iff_reached hstate).trans
    (Along.congr_of_invariant (fun state => support state ∧ invariant state)
      (fun state input hboth => hstep state input hboth.1 hboth.2)
      (fun state input hboth hinput hnext => ⟨hsupport state input hboth.1 hinput, hnext⟩)
      ⟨hstart, hstate⟩ hlegal)

/-- Where `holds` says which steps keep the invariant, it holds along a run iff
the invariant does in every state reached. -/
theorem Along.iff_throughout {legal holds : State → Input → Prop} (invariant : State → Prop)
    (hstep : ∀ state input, invariant state → legal state input →
      (invariant (step state input) ↔ holds state input))
    {state : State} {inputs : List Input} (hstate : invariant state)
    (hlegal : Along step legal state inputs) :
    (∀ before after, inputs = before ++ after → invariant (run step state before)) ↔
      Along step holds state inputs :=
  Along.iff_throughout_of (fun _ => True) invariant (fun _ _ _ _ => trivial)
    (fun state input _ => hstep state input) trivial hstate hlegal

/-- An invariant preserved by each admissible step holds after every admissible run. -/
theorem run_invariant {holds : State → Input → Prop} (invariant : State → Prop)
    (hstep : ∀ state input, invariant state → holds state input → invariant (step state input))
    {state : State} {inputs : List Input} (hstate : invariant state)
    (halong : Along step holds state inputs) : invariant (run step state inputs) := by
  induction inputs generalizing state with
  | nil => exact hstate
  | cons input rest ih => exact ih (hstep state input hstate halong.1) halong.2

/-- An invariant preserved by every step holds after every run. -/
theorem run_invariant_always (invariant : State → Prop)
    (hstep : ∀ state input, invariant state → invariant (step state input))
    {state : State} (hstate : invariant state) (inputs : List Input) :
    invariant (run step state inputs) := by
  induction inputs generalizing state with
  | nil => exact hstate
  | cons input rest ih => exact ih (hstep state input hstate)

/-- What an invariant gives at each step holds along every run. -/
theorem Along.of_invariant {holds : State → Input → Prop} (invariant : State → Prop)
    (hstep : ∀ state input, invariant state → invariant (step state input))
    (hholds : ∀ state input, invariant state → holds state input)
    {state : State} (hstate : invariant state) (inputs : List Input) :
    Along step holds state inputs := by
  induction inputs generalizing state with
  | nil => trivial
  | cons input rest ih => exact ⟨hholds state input hstate, ih (hstep state input hstate)⟩

/-- What an invariant gives at each admissible step holds along every admissible run. -/
theorem Along.of_invariant_of {legal holds : State → Input → Prop} (invariant : State → Prop)
    (hstep : ∀ state input, invariant state → legal state input → invariant (step state input))
    (hholds : ∀ state input, invariant state → legal state input → holds state input)
    {state : State} {inputs : List Input} (hstate : invariant state)
    (hlegal : Along step legal state inputs) : Along step holds state inputs := by
  induction inputs generalizing state with
  | nil => trivial
  | cons input rest ih =>
      exact ⟨hholds state input hstate hlegal.1,
        ih (hstep state input hstate hlegal.1) hlegal.2⟩

variable (step)

section Emitted

variable {Output : Type w} (emit : State → Input → List Output)

/-- The outputs of the steps of a run, in order. -/
def emitted : State → List Input → List Output
  | _, [] => []
  | state, input :: rest => emit state input ++ emitted (step state input) rest

@[simp] theorem emitted_cons (state : State) (input : Input) (rest : List Input) :
    emitted step emit state (input :: rest) =
      emit state input ++ emitted step emit (step state input) rest := rfl

theorem filter_emitted (keep : Output → Bool) (state : State) (inputs : List Input) :
    (emitted step emit state inputs).filter keep =
      emitted step (fun state input => (emit state input).filter keep) state inputs := by
  induction inputs generalizing state with
  | nil => rfl
  | cons input rest ih => rw [emitted_cons, List.filter_append, ih, emitted_cons]

end Emitted

section Total

variable {Cost : Type w} [AddMonoid Cost] (cost : State → Input → Cost)

/-- The costs charged by the steps of a run, summed. -/
def total : State → List Input → Cost
  | _, [] => 0
  | state, input :: rest => cost state input + total (step state input) rest

@[simp] theorem total_nil (state : State) : total step cost state [] = 0 := rfl

@[simp] theorem total_cons (state : State) (input : Input) (rest : List Input) :
    total step cost state (input :: rest) =
      cost state input + total step cost (step state input) rest := rfl

theorem total_append (state : State) (first second : List Input) :
    total step cost state (first ++ second) =
      total step cost state first + total step cost (run step state first) second := by
  induction first generalizing state with
  | nil => simp
  | cons input rest ih => simp [ih, add_assoc]

/-- A measure that every step raises by at most its cost. -/
theorem run_le_add_total {Cost : Type w} [AddMonoid Cost] [Preorder Cost] [AddRightMono Cost]
    {cost : State → Input → Cost} (measure : State → Cost) {holds : State → Input → Prop}
    (hstep : ∀ state input, holds state input →
      measure (step state input) ≤ measure state + cost state input)
    {state : State} {inputs : List Input} (halong : Along step holds state inputs) :
    measure (run step state inputs) ≤ measure state + total step cost state inputs := by
  induction inputs generalizing state with
  | nil => simp
  | cons input rest ih =>
      rw [run_cons, total_cons, ← add_assoc]
      exact (ih halong.2).trans (add_le_add_left (hstep state input halong.1) _)

/-- The changes of a measure along a run add up to its change from end to end. -/
theorem total_change {Cost : Type w} [AddCommGroup Cost] (measure : State → Cost) (state : State)
    (inputs : List Input) :
    total step (fun state input => measure (step state input) - measure state) state inputs =
      measure (run step state inputs) - measure state := by
  induction inputs generalizing state with
  | nil => simp
  | cons input rest ih => rw [total_cons, run_cons, ih, add_comm, sub_add_sub_cancel]

end Total

end Foundation
