import Opms.Foundation.Registry
import Opms.Foundation.Run

/-! # Tables of last writes

A table keeps the latest value assigned under each key. What a lookup returns
after a run is the last write to that key, so it does not matter how writes to
different keys were interleaved.
-/

namespace Foundation

universe u v

variable {Key : Type u} {Value : Type v} [DecidableEq Key]

namespace Registry

/-- Assign, if there is something to assign. -/
def write (table : Registry Key Value) : Option (Key × Value) → Registry Key Value
  | none => table
  | some (key, value) => table.set key value

end Registry

/-- The values a history writes under one key, oldest first. -/
def writesTo (key : Key) (history : List (Option (Key × Value))) : List Value :=
  history.filterMap fun entry => (entry.filter (·.1 = key)).map Prod.snd

theorem writesTo_append (key : Key) (first second : List (Option (Key × Value))) :
    writesTo key (first ++ second) = writesTo key first ++ writesTo key second :=
  List.filterMap_append

/-- The last value written under a key, or what was there before. -/
def lastWrite (initial : Option Value) (writes : List Value) : Option Value :=
  writes.getLast?.or initial

theorem lastWrite_append (initial : Option Value) (first second : List Value) :
    lastWrite initial (first ++ second) = lastWrite (lastWrite initial first) second := by
  simp [lastWrite, List.getLast?_append, Option.or_assoc]

theorem lookup_run_write (table : Registry Key Value) (history : List (Option (Key × Value)))
    (key : Key) : (run Registry.write table history).lookup key =
      lastWrite (table.lookup key) (writesTo key history) := by
  induction history generalizing table with
  | nil => rfl
  | cons entry rest ih =>
      rw [run_cons, ih, ← List.singleton_append, writesTo_append, lastWrite_append]
      congr 1
      cases entry with
      | none => rfl
      | some entry =>
          obtain ⟨written, value⟩ := entry
          rw [Registry.write, Registry.lookup_set]
          by_cases heq : key = written
          · subst heq
            simp [writesTo, lastWrite]
          · simp [writesTo, lastWrite, heq, Ne.symm heq]

end Foundation
