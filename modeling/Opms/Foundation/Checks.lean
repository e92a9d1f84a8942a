import Mathlib.Init

/-! # Checks in sequence

A program that reads and checks as it goes succeeds with what all of its steps
answer. A text format loads what it has dumped.
-/

namespace Foundation

universe u v

variable {Error : Type u} {Value Result : Type v}

/-- Go on only if the condition holds. -/
def require (condition : Bool) (error : Error) : Except Error Unit :=
  if condition then .ok () else .error error

@[simp] theorem require_eq_ok_iff {condition : Bool} {error : Error} {answer : Unit} :
    require condition error = .ok answer ↔ condition = true := by
  unfold require
  split
  next hcondition => exact iff_of_true rfl hcondition
  next hcondition => exact iff_of_false (fun hok => by cases hok) hcondition

/-- A reading that may be missing. -/
def orError (reading : Option Value) (error : Error) : Except Error Value :=
  match reading with
  | some value => .ok value
  | none => .error error

@[simp] theorem orError_eq_ok_iff {reading : Option Value} {error : Error} {value : Value} :
    orError reading error = .ok value ↔ reading = some value := by
  cases reading with
  | none => exact iff_of_false (fun hok => by cases hok) (fun hsome => by cases hsome)
  | some other => exact ⟨fun hok => congrArg some (Except.ok.inj hok), fun hsome =>
      congrArg Except.ok (Option.some.inj hsome)⟩

theorem bind_eq_ok_iff {first : Except Error Value} {next : Value → Except Error Result}
    {result : Result} : (first >>= next) = .ok result ↔
      ∃ value, first = .ok value ∧ next value = .ok result := by
  constructor
  · intro hok
    cases first with
    | error error => cases hok
    | ok value => exact ⟨value, rfl, hok⟩
  · rintro ⟨value, rfl, hok⟩
    exact hok

theorem bind_eq_error_iff {first : Except Error Value} {next : Value → Except Error Result}
    {error : Error} : (first >>= next) = .error error ↔
      first = .error error ∨ ∃ value, first = .ok value ∧ next value = .error error := by
  constructor
  · intro herror
    cases first with
    | error other => exact .inl (congrArg Except.error (Except.error.inj herror))
    | ok value => exact .inr ⟨value, rfl, herror⟩
  · rintro (rfl | ⟨value, rfl, herror⟩)
    · rfl
    · exact herror

section Lists

variable {Item : Type v}

theorem forM_eq_ok_iff {items : List Item} {check : Item → Except Error PUnit}
    {answer : PUnit} :
    items.forM check = .ok answer ↔ ∀ item ∈ items, check item = .ok .unit := by
  induction items with
  | nil => exact iff_of_true rfl fun item hmem => by simp at hmem
  | cons first rest ih =>
      rw [List.forM_eq_forM, List.forM_cons, ← List.forM_eq_forM, bind_eq_ok_iff,
        List.forall_mem_cons]
      constructor
      · rintro ⟨_, hfirst, hrest⟩
        exact ⟨hfirst, ih.mp hrest⟩
      · rintro ⟨hfirst, hrest⟩
        exact ⟨.unit, hfirst, ih.mpr hrest⟩

theorem exists_mapM_eq_ok_iff {items : List Item} {read : Item → Except Error Value} :
    (∃ values, items.mapM read = .ok values) ↔ ∀ item ∈ items, ∃ value, read item = .ok value := by
  induction items with
  | nil => exact iff_of_true ⟨[], rfl⟩ fun item hmem => by simp at hmem
  | cons first rest ih =>
      rw [List.forall_mem_cons, ← ih]
      simp only [List.mapM_cons, bind_eq_ok_iff]
      constructor
      · rintro ⟨values, value, hfirst, others, hrest, _⟩
        exact ⟨⟨value, hfirst⟩, others, hrest⟩
      · rintro ⟨⟨value, hfirst⟩, others, hrest⟩
        exact ⟨value :: others, value, hfirst, others, hrest, rfl⟩

end Lists

theorem exists_ok_of_isOk {result : Except Error Value} (h : result.isOk = true) :
    ∃ value, result = .ok value := by
  cases result with
  | error error => cases h
  | ok value => exact ⟨value, rfl⟩

/-- A text format, which loads what it has dumped. -/
structure Codec (Value Text : Type*) where
  dump : Value → Text
  load : Text → Option Value
  load_dump : ∀ value, load (dump value) = some value

end Foundation
