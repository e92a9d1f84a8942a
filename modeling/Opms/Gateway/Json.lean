import Mathlib.Algebra.Order.Floor.Ring

/-! # JSON values as Python reads them

Decoded replies and request bodies are dictionaries of JSON values. Reading one
tests it for truth or converts it to a number; what `int` and `float` make of a
string is a parameter.
-/

namespace Opms.Gateway

universe u

inductive Json (K : Type u)
  | null
  | bool (b : Bool)
  | int (n : ℤ)
  | float (x : K)
  | string (text : String)
  | array (items : List (Json K))
  | object (fields : List (String × Json K))

/-- A dictionary with string keys. -/
abbrev Fields (K : Type u) := List (String × Json K)

namespace Fields

variable {K : Type u}

def get? (fields : Fields K) (key : String) : Option (Json K) :=
  (fields.find? fun field => field.1 = key).map Prod.snd

/-- `fields[key] = value`, which keeps the place of a present key. -/
def set (fields : Fields K) (key : String) (value : Json K) : Fields K :=
  if fields.any fun field => field.1 = key then
    fields.map fun field => if field.1 = key then (key, value) else field
  else
    fields ++ [(key, value)]

/-- `_first`: the first of the keys that holds a value other than `None`. -/
def first (fields : Fields K) (keys : List String) : Option (Json K) :=
  keys.findSome? fun key =>
    match fields.get? key with
    | some .null => none
    | value => value

end Fields

/-- What Python's number constructors make of a string. -/
structure StringReader (K : Type u) where
  int : String → Option ℤ
  float : String → Option K

namespace Json

variable {K : Type u}

def fields? : Json K → Option (Fields K)
  | .object fields => some fields
  | _ => none

def isString (text : String) : Json K → Bool
  | .string other => other = text
  | _ => false

variable [Field K] [LinearOrder K]

/-- `bool(value)`. -/
def truthy : Json K → Bool
  | .null => false
  | .bool b => b
  | .int n => n ≠ 0
  | .float x => x ≠ 0
  | .string text => text ≠ ""
  | .array items => !items.isEmpty
  | .object fields => !fields.isEmpty

/-- `float(value)`, or `none` when it raises. -/
def toFloat (read : StringReader K) : Json K → Option K
  | .bool b => some (if b then 1 else 0)
  | .int n => some n
  | .float x => some x
  | .string text => read.float text
  | _ => none

/-- `int(value)`, or `none` when it raises. -/
def toInt [FloorRing K] (read : StringReader K) : Json K → Option ℤ
  | .bool b => some (if b then 1 else 0)
  | .int n => some n
  | .float x => some (if 0 ≤ x then ⌊x⌋ else ⌈x⌉)
  | .string text => read.int text
  | _ => none

/-- `float(value or 0.0)` of a value that may be missing. -/
def toFloatOrZero (read : StringReader K) : Option (Json K) → Option K
  | none => some 0
  | some value => if value.truthy then value.toFloat read else some 0

end Json

end Opms.Gateway
