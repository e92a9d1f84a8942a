import Mathlib.Data.List.Basic

/-! # Loops that stop

A loop goes on with a new state or stops with a result. What it carries in its
state summarizes the inputs so far, so the loop can be compared with a verdict
on the whole history: it stops at the first input that gets one.
-/

namespace Foundation

universe u v w x

variable {State : Type u} {Input : Type v} {Exit : Type w} {Result : Type x}

/-- Feed the inputs to the loop until it stops. -/
def loop (step : State → Input → Except Exit State) : State → List Input → Except Exit State
  | state, [] => .ok state
  | state, input :: rest =>
      match step state input with
      | .error exit => .error exit
      | .ok next => loop step next rest

section Loop

variable {step : State → Input → Except Exit State}

theorem loop_append (state : State) (before after : List Input) :
    loop step state (before ++ after) =
      match loop step state before with
      | .error exit => .error exit
      | .ok next => loop step next after := by
  induction before generalizing state with
  | nil => rfl
  | cons input rest ih =>
      rw [List.cons_append, loop, loop]
      cases step state input with
      | error exit => rfl
      | ok next => exact ih next

/-- A loop that goes on has gone on after every prefix. -/
theorem loop_prefix {state final : State} {before after : List Input}
    (hfinal : loop step state (before ++ after) = .ok final) :
    ∃ next, loop step state before = .ok next ∧ loop step next after = .ok final := by
  rw [loop_append] at hfinal
  cases hbefore : loop step state before with
  | error exit =>
      rw [hbefore] at hfinal
      cases hfinal
  | ok next =>
      rw [hbefore] at hfinal
      exact ⟨next, rfl, hfinal⟩

theorem loop_singleton (state : State) (input : Input) :
    loop step state [input] = step state input := by
  rw [loop]
  cases step state input <;> rfl

/-- A loop that stops has gone on up to the input it stops at. -/
theorem loop_stops {state : State} {inputs : List Input} {exit : Exit}
    (hexit : loop step state inputs = .error exit) :
    ∃ before input after next, inputs = before ++ input :: after ∧
      loop step state before = .ok next ∧ step next input = .error exit := by
  induction inputs generalizing state with
  | nil => cases hexit
  | cons input rest ih =>
      rw [loop] at hexit
      cases hstep : step state input with
      | error other =>
          rw [hstep] at hexit
          obtain rfl := Except.error.inj hexit
          exact ⟨[], input, rest, state, rfl, rfl, hstep⟩
      | ok next =>
          rw [hstep] at hexit
          obtain ⟨before, last, after, final, rfl, hbefore, hlast⟩ := ih hexit
          refine ⟨input :: before, last, after, final, rfl, ?_, hlast⟩
          rw [loop, hstep]
          exact hbefore

end Loop

/-- The verdict on the first input that gets one, given the inputs before it. -/
def firstVerdict (verdict : List Input → Input → Option Result) :
    List Input → List Input → Option Result
  | _, [] => none
  | history, input :: rest =>
      match verdict history input with
      | some result => some result
      | none => firstVerdict verdict (history ++ [input]) rest

section First

variable {verdict : List Input → Input → Option Result}

theorem firstVerdict_eq_none_iff {history inputs : List Input} :
    firstVerdict verdict history inputs = none ↔
      ∀ before input after, inputs = before ++ input :: after →
        verdict (history ++ before) input = none := by
  induction inputs generalizing history with
  | nil => exact iff_of_true rfl fun before input after heq => by simp at heq
  | cons first rest ih =>
      rw [firstVerdict]
      cases hfirst : verdict history first with
      | some result =>
          refine iff_of_false (fun hnone => by cases hnone) fun hall => ?_
          have hnone := hall [] first rest rfl
          rw [List.append_nil, hfirst] at hnone
          cases hnone
      | none =>
          refine ih.trans ⟨fun hall before input after heq => ?_,
            fun hall before input after heq => ?_⟩
          · cases before with
            | nil =>
                obtain ⟨rfl, rfl⟩ := List.cons.inj heq
                rw [List.append_nil]
                exact hfirst
            | cons head before =>
                obtain ⟨rfl, rfl⟩ := List.cons.inj heq
                have hlater := hall before input after rfl
                rwa [List.append_assoc] at hlater
          · have hlater := hall (first :: before) input after (by rw [heq, List.cons_append])
            rwa [List.append_assoc]

end First

/-- What the loop has made of the inputs: a result, or nothing yet. -/
def stopped (project : Exit → Result) : Except Exit State → Option Result
  | .ok _ => none
  | .error exit => some (project exit)

/-- A loop whose state represents the history, and that stops at an input
exactly with the verdict on it, stops at the first input that gets a verdict. -/
theorem loop_refines {step : State → Input → Except Exit State}
    {verdict : List Input → Input → Option Result} (project : Exit → Result)
    (represents : List Input → State → Prop)
    (hstep : ∀ history state input, represents history state →
      stopped project (step state input) = verdict history input ∧
        ∀ next, step state input = .ok next → represents (history ++ [input]) next)
    {history : List Input} {state : State} (hstate : represents history state)
    (inputs : List Input) :
    stopped project (loop step state inputs) = firstVerdict verdict history inputs ∧
      ∀ final, loop step state inputs = .ok final → represents (history ++ inputs) final := by
  induction inputs generalizing history state with
  | nil =>
      refine ⟨rfl, fun final hfinal => ?_⟩
      obtain rfl := Except.ok.inj hfinal
      rwa [List.append_nil]
  | cons input rest ih =>
      obtain ⟨hverdict, hnext⟩ := hstep history state input hstate
      rw [loop, firstVerdict, ← hverdict]
      cases hresult : step state input with
      | error exit => exact ⟨rfl, fun final hfinal => by cases hfinal⟩
      | ok next =>
          obtain ⟨hrest, hfinal⟩ := ih (hnext next hresult)
          refine ⟨hrest, fun final heq => ?_⟩
          rw [List.append_cons]
          exact hfinal final heq

end Foundation
