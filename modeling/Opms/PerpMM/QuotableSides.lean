import Opms.PerpMM.Branches
import Mathlib.Algebra.Order.Floor.Ring

/-! # Which sides can be quoted

The venue minimums are checked twice: on the legs as intended, which gives the
sides that the watchdog expects, and on the quotes as sent. In between the
amount is rounded down to the size step and the price is kept off the touch.
-/

namespace Opms.PerpMM

open PerpMMController

variable {cfg : PerpMMControllerConfig} {cycle : Cycle}

/-- The sides of the legs that the first check keeps. -/
def executableSides (cycle : Cycle) (specs : List OrderSpec) : Finset TradeType :=
  ((executableQuoteSpecs cycle specs).filterMap (·.side)).toFinset

/-- The sides that get a quote out of these legs. -/
def createdSides (cfg : PerpMMControllerConfig) (cycle : Cycle) (specs : List OrderSpec) :
    Finset TradeType :=
  ((quoteCreateActions cfg cycle specs).filterMap fun action =>
    action.created?.map ExecutorConfig.side).toFinset

/-- The sides the watchdog waits for are the executable ones of the last intent. -/
theorem expectedSides_eq (cycle : Cycle) :
    expectedSides cycle = executableSides cycle (intentToOrderSpecs cycle.lastIntent) := rfl

/-! ## Rounding to the size step -/

/-- The least amount on the size step that is no smaller, when there is one. -/
def roundedUp (cycle : Cycle) (amount : ℚ) : ℚ :=
  let step := cycle.rules.minBaseAmountIncrement
  if step > 0 then ⌈amount / step⌉ * step else amount

/-- Rounding down reaches a bound iff the amount reaches the bound rounded up. -/
theorem le_quantized_iff (cycle : Cycle) (bound amount : ℚ) :
    bound ≤ quantized cycle amount ↔ roundedUp cycle bound ≤ amount := by
  unfold quantized roundedUp
  dsimp only
  split
  next hstep => rw [← div_le_iff₀ hstep, ← Int.ceil_le, Int.le_floor, le_div_iff₀ hstep]
  next => exact Iff.rfl

/-! ## The second check -/

/-- The leg still meets the minimums once it is rounded and kept off the touch. -/
structure ClearsMinimums (cfg : PerpMMControllerConfig) (cycle : Cycle) (spec : OrderSpec) :
    Prop where
  amount_pos : 0 < spec.amount
  size : roundedUp cycle cycle.rules.minOrderSize ≤ spec.amount
  notional : ∃ price ∈ bufferedMakerPrice cfg cycle spec,
    cycle.rules.minNotionalSize ≤ quantized cycle spec.amount * price

theorem quoteConfig_isSome_iff {spec : OrderSpec} (hside : spec.side.isSome) :
    (quoteConfig cfg cycle spec).isSome ↔ ClearsMinimums cfg cycle spec := by
  obtain ⟨side, hside⟩ := Option.isSome_iff_exists.mp hside
  rw [quoteConfig, hside, Option.bind_some]
  constructor
  · intro hsome
    split at hsome
    next => cases hsome
    next hamount =>
      cases hprice : bufferedMakerPrice cfg cycle spec with
      | none =>
          rw [hprice] at hsome
          cases hsome
      | some price =>
          rw [hprice, Option.bind_some] at hsome
          dsimp only at hsome
          split at hsome
          next => cases hsome
          next hminimums =>
            rw [not_or, not_lt, not_lt] at hminimums
            exact ⟨not_le.mp hamount, (le_quantized_iff _ _ _).mp hminimums.1, price, hprice,
              hminimums.2⟩
  · rintro ⟨hamount, hsize, price, hprice, hnotional⟩
    rw [if_neg (not_le.mpr hamount), hprice, Option.bind_some]
    dsimp only
    rw [if_neg (not_or.mpr ⟨not_lt.mpr ((le_quantized_iff _ _ _).mpr hsize), not_lt.mpr hnotional⟩)]
    rfl

theorem mem_createdSides_iff {specs : List OrderSpec} {side : TradeType} :
    side ∈ createdSides cfg cycle specs ↔
      ∃ spec ∈ specs, spec.side = some side ∧ ClearsMinimums cfg cycle spec := by
  simp only [createdSides, quoteCreateActions, List.mem_toFinset, List.mem_filterMap,
    List.mem_map]
  constructor
  · rintro ⟨_, ⟨config, ⟨spec, hspec, hconfig⟩, rfl⟩, hside⟩
    obtain rfl := Option.some.inj hside
    have hsame := (quoteConfig_facts hconfig).2
    refine ⟨spec, hspec, hsame, (quoteConfig_isSome_iff (by rw [hsame]; rfl)).mp ?_⟩
    rw [hconfig]
    rfl
  · rintro ⟨spec, hspec, hside, hclears⟩
    have hsome := (quoteConfig_isSome_iff (by rw [hside]; rfl)).mpr hclears
    obtain ⟨config, hconfig⟩ := Option.isSome_iff_exists.mp hsome
    refine ⟨_, ⟨config, ⟨spec, hspec, hconfig⟩, rfl⟩, ?_⟩
    exact (quoteConfig_facts hconfig).2.symm.trans hside

theorem mem_executableSides_iff {specs : List OrderSpec} {side : TradeType} :
    side ∈ executableSides cycle specs ↔
      ∃ spec ∈ executableQuoteSpecs cycle specs, spec.side = some side := by
  rw [executableSides, List.mem_toFinset, List.mem_filterMap]

/-- The two checks agree on the sides iff every side with an executable leg has
one that clears the minimums after rounding and buffering. -/
theorem executableSides_eq_createdSides_iff (cfg : PerpMMControllerConfig) (cycle : Cycle)
    (specs : List OrderSpec) :
    executableSides cycle specs = createdSides cfg cycle (executableQuoteSpecs cycle specs) ↔
      ∀ side, (∃ spec ∈ executableQuoteSpecs cycle specs, spec.side = some side) →
        ∃ spec ∈ executableQuoteSpecs cycle specs,
          spec.side = some side ∧ ClearsMinimums cfg cycle spec := by
  rw [Finset.ext_iff]
  refine forall_congr' fun side => ?_
  rw [mem_executableSides_iff, mem_createdSides_iff]
  constructor
  · exact Iff.mp
  · intro hclears
    refine ⟨hclears, ?_⟩
    rintro ⟨spec, hspec, hside, _⟩
    exact ⟨spec, hspec, hside⟩

/-- A bid for exactly the minimum notional above the best bid is executable, but
its quote is priced off the touch and dropped. -/
theorem minimum_bid_is_dropped :
    let cycle : Cycle :=
      { sampleCycle 0 sampleQuote 0 with
        bestBid := some (999 / 10)
        bestAsk := some (1001 / 10)
        rules := { minNotionalSize := 10, minBaseAmountIncrement := 1 / 100 } }
    let spec : OrderSpec := { side := some .buy, price := some 100, amount := 1 / 10 }
    createdSides sampleConfig cycle (executableQuoteSpecs cycle [spec]) = ∅ ∧
      executableSides cycle [spec] ≠
        createdSides sampleConfig cycle (executableQuoteSpecs cycle [spec]) := by
  decide +kernel

end Opms.PerpMM
