import Opms.Hummingbot
import Mathlib.Algebra.Order.Field.Basic

/-! # The Almgren-Chriss schedule

The trajectory is a ratio of hyperbolic sines evaluated at clock-time or
volume-time fractions. Numbers come from any ordered field, `exp` and `sqrt`
from outside, so the same definitions are run on rationals and read over the
reals.
-/

namespace Opms.ACSchedule

universe u

/-- The functions taken from `math`. -/
structure MathFunctions (K : Type u) where
  exp : K → K
  sqrt : K → K

/-- How `build_schedule` can raise. -/
inductive ScheduleError (K : Type u)
  | duration
  | numIntervals
  | riskAversion
  | volatility
  | etaTilde (got : K)
  | volumeFractions
  | indexError
  deriving DecidableEq

def ScheduleError.message {K : Type u} [ToString K] : ScheduleError K → String
  | .duration => "duration_seconds must be positive"
  | .numIntervals => "num_intervals must be positive"
  | .riskAversion => "risk_aversion must be non-negative"
  | .volatility => "volatility must be non-negative"
  | .etaTilde got => s!"eta - 0.5*gamma*tau must be positive (got {got}); " ++
      "reduce gamma or increase num_intervals/eta"
  | .volumeFractions => "cumulative_volume_fractions must be non-decreasing, within [0, 1]"
  | .indexError => "list index out of range"

variable {K : Type u} [Field K] [LinearOrder K]

/-- `sinh(a*u) / sinh(a)`, and `u` in the risk-neutral limit. -/
def sinhRatio (math : MathFunctions K) (u a : K) : K :=
  if a ≤ 0 then
    u
  else
    let num := math.exp (a * (u - 1)) - math.exp (-a * (u + 1))
    let den := 1 - math.exp (-2 * a)
    num / den

/-- Some adjacent pair breaks `0.0 <= a <= b`. -/
def decreasesSomewhere : List K → Bool
  | a :: b :: rest => !(0 ≤ a ∧ a ≤ b) || decreasesSomewhere (b :: rest)
  | _ => false

/-- The fractions `build_schedule` evaluates the trajectory at. -/
def scheduleFractions (numIntervals : ℤ) (cumulativeVolumeFractions : Option (List K)) :
    Except (ScheduleError K) (List K) :=
  match cumulativeVolumeFractions with
  | none => .ok ((List.range (numIntervals + 1).toNat).map fun j : ℕ => (j : K) / numIntervals)
  | some fractions =>
      if decreasesSomewhere fractions then
        .error .volumeFractions
      else
        match fractions.getLast? with
        | none => .error .indexError
        | some last => if last > 1 + 1 / 10 ^ 9 then .error .volumeFractions else .ok fractions

/-- The loop over slices: each is the drop between two holdings, the last one
what is left of the total. -/
def sliceSizes (totalQuantity : K) : K → List K → List K
  | cumulative, x :: y :: z :: rest =>
      let size := (x - y) * totalQuantity
      size :: sliceSizes totalQuantity (cumulative + size) (y :: z :: rest)
  | cumulative, [_, _] => [totalQuantity - cumulative]
  | _, _ => []

/-- One round of the merge loop on the merged slices and the accumulator. -/
def mergeStep (minOrderSize : K) (state : List K × K) (size : K) : List K × K :=
  let acc := state.2 + size
  if acc ≥ minOrderSize then (state.1 ++ [acc], 0) else (state.1, acc)

/-- Fold a positive rest into the last merged slice, or make it the only one. -/
def mergeTail (state : List K × K) : List K :=
  if state.2 > 0 then
    match state.1.getLast? with
    | some last => state.1.dropLast ++ [last + state.2]
    | none => [state.2]
  else
    state.1

/-- Merge slices below the minimum forward. -/
def mergeMinSize (sizes : List K) (minOrderSize : Option K) : List K :=
  match minOrderSize.filter (0 < ·) with
  | none => sizes
  | some minOrderSize => mergeTail (sizes.foldl (mergeStep minOrderSize) ([], 0))

/-- The arguments of `build_schedule` that a config fixes. -/
structure ScheduleParameters (K : Type u) where
  totalQuantity : K
  durationSeconds : K
  numIntervals : ℤ
  riskAversion : K
  volatility : K
  eta : K
  gamma : K
  minOrderSize : Option K

omit [LinearOrder K] in
/-- `kappa * duration_seconds`. -/
def ScheduleParameters.urgency (math : MathFunctions K) (p : ScheduleParameters K) : K :=
  math.sqrt (p.riskAversion * p.volatility ^ 2 /
    (p.eta - 1 / 2 * p.gamma * (p.durationSeconds / p.numIntervals))) * p.durationSeconds

def buildSchedule (math : MathFunctions K) (p : ScheduleParameters K)
    (cumulativeVolumeFractions : Option (List K)) : Except (ScheduleError K) (List K) :=
  if p.durationSeconds ≤ 0 then .error .duration
  else if p.numIntervals ≤ 0 then .error .numIntervals
  else if p.riskAversion < 0 then .error .riskAversion
  else if p.volatility < 0 then .error .volatility
  else
    let tau := p.durationSeconds / p.numIntervals
    let etaTilde := p.eta - 1 / 2 * p.gamma * tau
    if etaTilde ≤ 0 then .error (.etaTilde etaTilde)
    else
      let kappa := math.sqrt (p.riskAversion * p.volatility ^ 2 / etaTilde)
      let a := kappa * p.durationSeconds
      match scheduleFractions p.numIntervals cumulativeVolumeFractions with
      | .error error => .error error
      | .ok fractions =>
          let holdings := fractions.map fun v => sinhRatio math (1 - v) a
          .ok (mergeMinSize (sliceSizes p.totalQuantity 0 holdings) p.minOrderSize)

end Opms.ACSchedule
