import Opms.Foundation.Run

/-! # Episodes

A machine that reports only when it enters or leaves a condition reports
alternately; one that reports each stage it reaches reports every stage at most
once and in order.
-/

namespace Foundation

universe u v w

/-- The list alternates between two values, beginning with the first. -/
def Alternates {Output : Type w} : Output → Output → List Output → Prop
  | _, _, [] => True
  | first, second, output :: rest => output = first ∧ Alternates second first rest

instance Alternates.decidable {Output : Type w} [DecidableEq Output] :
    ∀ (first second : Output) outputs, Decidable (Alternates first second outputs)
  | _, _, [] => .isTrue trivial
  | first, second, output :: rest =>
      have := Alternates.decidable second first rest
      inferInstanceAs (Decidable (output = first ∧ _))

variable {State : Type u} {Input : Type v} {Output : Type w} {step : State → Input → State}
  {emit : State → Input → List Output}

/-- A step that reports nothing keeps the phase, and the only other step flips
it and reports the new one. -/
theorem emitted_alternates (phase : State → Bool) (label : Bool → Output)
    (hstep : ∀ state input, (emit state input = [] ∧ phase (step state input) = phase state) ∨
      (emit state input = [label (!phase state)] ∧ phase (step state input) = !phase state))
    (state : State) (inputs : List Input) :
    Alternates (label (!phase state)) (label (phase state)) (emitted step emit state inputs) := by
  induction inputs generalizing state with
  | nil => trivial
  | cons input rest ih =>
      rw [emitted_cons]
      have hrest := ih (step state input)
      rcases hstep state input with ⟨hemit, hphase⟩ | ⟨hemit, hphase⟩
      · rw [hphase] at hrest
        rw [hemit]
        exact hrest
      · rw [hphase, Bool.not_not] at hrest
        rw [hemit]
        exact ⟨rfl, hrest⟩

/-- A step that reports nothing keeps the rank, and the only other step raises it
and reports the new one. -/
theorem emitted_ascends (rank : State → ℕ) (mark : Output → ℕ)
    (hstep : ∀ state input, (emit state input = [] ∧ rank (step state input) = rank state) ∨
      ∃ output, emit state input = [output] ∧ mark output = rank (step state input) ∧
        rank state < rank (step state input))
    (state : State) (inputs : List Input) :
    (emitted step emit state inputs).Pairwise (fun earlier later => mark earlier < mark later) ∧
      ∀ output ∈ emitted step emit state inputs, rank state < mark output := by
  induction inputs generalizing state with
  | nil => exact ⟨List.Pairwise.nil, fun _ h => by cases h⟩
  | cons input rest ih =>
      rw [emitted_cons]
      obtain ⟨hascends, habove⟩ := ih (step state input)
      rcases hstep state input with ⟨hemit, hrank⟩ | ⟨output, hemit, hmark, hrank⟩
      · rw [hrank] at habove
        rw [hemit]
        exact ⟨hascends, habove⟩
      · rw [hemit, List.singleton_append, List.pairwise_cons, List.forall_mem_cons, hmark]
        exact ⟨⟨habove, hascends⟩, hrank, fun later hlater => Nat.lt_trans hrank (habove later hlater)⟩

end Foundation
