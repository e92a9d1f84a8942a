import Opms.ACSchedule.OverExecution
import Opms.PassiveAggressive.Step
import Mathlib.Tactic.Ring

/-! # What the executors report as their PnL

Both executors keep the base amount they were credited and value it at the mid
of the moment they are asked. The prices of the fills are not kept, so the
report is about the mid alone.
-/

namespace Opms

open Foundation

universe u

/-- What `get_price` answers: it raises, or reports NaN or a number. -/
inductive PriceReading (K : Type u)
  | raises
  | nan
  | price (mid : K)

/-- `Decimal("1")` for a buy, `Decimal("-1")` otherwise. -/
def TradeType.sign {K : Type u} [Field K] (side : TradeType) : K :=
  if side = .buy then 1 else -1

/-- What an executor's report is computed from. -/
structure Account (K : Type u) where
  side : TradeType
  cumulativeFilled : K
  cumFeesQuote : K

namespace Account

variable {K : Type u} [Field K] [DecidableEq K]

omit [DecidableEq K] in
/-- `filled_amount_quote`; `none` is NaN. -/
def filledAmountQuote (account : Account K) : PriceReading K → Option K
  | .raises => some 0
  | .nan => none
  | .price mid => some (account.cumulativeFilled * mid)

/-- `get_net_pnl_quote`; `none` is NaN. -/
def getNetPnlQuote (account : Account K) : PriceReading K → Option K
  | .raises => some 0
  | .nan => none
  | .price mid => (account.filledAmountQuote (.price mid)).map fun filled =>
      let avg := if account.cumulativeFilled ≠ 0 then filled / account.cumulativeFilled else mid
      account.side.sign * (mid - avg) * account.cumulativeFilled - account.cumFeesQuote

/-- The average is taken over the value at the mid, so it is the mid. -/
theorem getNetPnlQuote_price (account : Account K) (mid : K) :
    account.getNetPnlQuote (.price mid) = some (-account.cumFeesQuote) := by
  simp only [getNetPnlQuote, filledAmountQuote, Option.map_some, Option.some.injEq]
  split
  next hfilled => rw [mul_div_cancel_left₀ _ hfilled, sub_self, mul_zero, zero_mul, zero_sub]
  next => rw [sub_self, mul_zero, zero_mul, zero_sub]

end Account

def PassiveAggressive.Executor.account {n : ℕ} (cfg : PassiveAggressive.Settings)
    (s : PassiveAggressive.Executor n) : Account ℚ :=
  ⟨cfg.side, s.cumulativeFilled, s.cumFeesQuote⟩

/-- Nothing ever adds to the fees of a scheduled order. -/
def ACSchedule.Executor.account {K : Type u} [Field K] (cfg : ACSchedule.Settings K)
    (s : ACSchedule.Executor K) : Account K :=
  ⟨cfg.side, s.cumulativeFilled, 0⟩

/-! ## Credits with their prices -/

section Priced

variable {State Input K : Type*} [Field K] (step : State → Input → State) (filled : State → K)

/-- An input with the price of the execution it reports. The step does not read
the price. -/
def pricedStep (state : State) (input : Input × K) : State := step state input.1

/-- The base amount a step credits. -/
def creditOf (state : State) (input : Input × K) : K := filled (step state input.1) - filled state

/-- The credited amounts of a run, each weighted by a function of its price. -/
def weighted (weight : K → K) (state : State) (inputs : List (Input × K)) : K :=
  total (pricedStep step) (fun state input => creditOf step filled state input * weight input.2)
    state inputs

theorem weighted_one (state : State) (inputs : List (Input × K)) :
    weighted step filled (fun _ => 1) state inputs =
      filled (run (pricedStep step) state inputs) - filled state := by
  simp only [weighted, mul_one]
  exact total_change (pricedStep step) filled state inputs

/-- Marked at `mid`, the credits are worth their amount at `mid` less their cost. -/
theorem weighted_sub (mid : K) (state : State) (inputs : List (Input × K)) :
    weighted step filled (fun price => mid - price) state inputs =
      mid * weighted step filled (fun _ => 1) state inputs -
        weighted step filled id state inputs := by
  induction inputs generalizing state with
  | nil => simp [weighted]
  | cons input rest ih =>
      simp only [weighted, total_cons, id] at ih ⊢
      rw [ih]
      ring

end Priced

theorem TradeType.sign_ne_zero {K : Type u} [Field K] (side : TradeType) :
    (side.sign : K) ≠ 0 := by
  unfold TradeType.sign
  split
  next => exact one_ne_zero
  next => exact neg_ne_zero.mpr one_ne_zero

/-- Before fees, the account reports the value of the credits marked to the mid. -/
def MarksToMarket {K : Type u} [Field K] [DecidableEq K] (account : Account K) (mid : K)
    (value : (K → K) → K) : Prop :=
  (account.getNetPnlQuote (.price mid)).map (· + account.cumFeesQuote) =
    some (account.side.sign * value fun price => mid - price)

instance {K : Type u} [Field K] [DecidableEq K] (account : Account K) (mid : K)
    (value : (K → K) → K) : Decidable (MarksToMarket account mid value) :=
  inferInstanceAs (Decidable (_ = _))

/-- A report marks the credits of a run to the mid iff they cost on average what
the mid is. -/
theorem marksToMarket_iff {State Input K : Type*} [Field K] [DecidableEq K]
    (step : State → Input → State) (filled : State → K) (account : Account K) (mid : K)
    (state : State) (inputs : List (Input × K)) :
    MarksToMarket account mid (fun weight => weighted step filled weight state inputs) ↔
      weighted step filled id state inputs =
        mid * weighted step filled (fun _ => 1) state inputs := by
  rw [MarksToMarket, account.getNetPnlQuote_price, Option.map_some, neg_add_cancel,
    Option.some.injEq, weighted_sub, zero_eq_mul,
    or_iff_right (TradeType.sign_ne_zero account.side), sub_eq_zero]
  exact eq_comm

theorem ACSchedule.World.start_cumulativeFilled {K : Type u} [Field K] [LinearOrder K]
    {math : ACSchedule.MathFunctions K} {cfg : ACSchedule.Settings K} {clock : K}
    {w : ACSchedule.World K} (hstart : ACSchedule.World.start math cfg clock = .ok w) :
    w.executor.cumulativeFilled = 0 := by
  obtain ⟨hinit, -⟩ := ACSchedule.World.start_ok hstart
  exact (ACSchedule.Executor.init_fresh hinit).2.1

/-- For every run of either executor, with a price for every credited execution,
and every mid: the reported PnL before fees is the value of the credits marked to
that mid iff the mid is their average price, or nothing was credited. -/
theorem netPnl_markToMarket_iff {K : Type u} [Field K] [LinearOrder K]
    (pa : PassiveAggressive.Settings) (slots : List PassiveAggressive.ChildSlot)
    (ops : List (PassiveAggressive.Op × ℚ)) (mid : ℚ)
    (math : ACSchedule.MathFunctions K) (ac : ACSchedule.Settings K) {clock : K}
    {w : ACSchedule.World K} (hstart : ACSchedule.World.start math ac clock = .ok w)
    (inputs : List (ACSchedule.Input K × K)) (mid' : K) :
    (let step := PassiveAggressive.perform pa
      let start := PassiveAggressive.Executor.init slots
      let s := run (pricedStep step) start ops
      let value := fun weight =>
        weighted step PassiveAggressive.Executor.cumulativeFilled weight start ops
      value (fun _ => 1) = s.cumulativeFilled ∧
        (MarksToMarket (s.account pa) mid value ↔ value id = mid * value fun _ => 1)) ∧
      (let step := ACSchedule.World.perform math ac
        let s := (run (pricedStep step) w inputs).executor
        let value := fun weight =>
          weighted step (fun w => w.executor.cumulativeFilled) weight w inputs
        value (fun _ => 1) = s.cumulativeFilled ∧
          (MarksToMarket (s.account ac) mid' value ↔ value id = mid' * value fun _ => 1)) := by
  refine ⟨⟨?_, marksToMarket_iff _ _ _ _ _ _⟩, ?_, marksToMarket_iff _ _ _ _ _ _⟩
  · exact (weighted_one _ _ _ _).trans (sub_zero _)
  · refine (weighted_one _ _ _ _).trans ?_
    rw [ACSchedule.World.start_cumulativeFilled hstart]
    exact sub_zero _

/-! ## A buy at 100 -/

/-- One unit is bought at 100. -/
def boughtRun : List (PassiveAggressive.Op × ℚ) :=
  [ (.controlTask { now := 0, bestBid := some 100, orderId := "limit" }, 0),
    (.filled { orderId := "limit", exchangeTradeId := some "trade", amount := 1 }, 100) ]

/-- A slice of half a unit is bought at 100. -/
def boughtSlice : List (ACSchedule.Input ℚ × ℚ) :=
  [ (.controlTask { now := 0, orderId := "first" }, 0),
    (.execute "first" (1 / 2), 100), (.settle "first", 0),
    (.completed "first" (1 / 2), 100) ]

/-- At a mid of 100 the report is right. -/
theorem netPnl_markToMarket_iff_unmoved :
    MarksToMarket ((run (pricedStep (ACSchedule.World.perform ACSchedule.riskNeutralMath
        ACSchedule.sampleConfig)) ACSchedule.sampleStart boughtSlice).executor.account
          ACSchedule.sampleConfig) 100
      (fun weight => weighted (ACSchedule.World.perform ACSchedule.riskNeutralMath
        ACSchedule.sampleConfig) (fun w => w.executor.cumulativeFilled) weight
          ACSchedule.sampleStart boughtSlice) :=
  (netPnl_markToMarket_iff PassiveAggressive.sampleConfig [{ target := 1 }] boughtRun 100
    ACSchedule.riskNeutralMath ACSchedule.sampleConfig ACSchedule.start_sampleConfig boughtSlice
    100).2.2.mpr (by decide +kernel)

/-- At a mid of 110 both executors report no gain, where ten and five were made. -/
theorem netPnl_ignores_fill_prices :
    (let step := PassiveAggressive.perform PassiveAggressive.sampleConfig
      let start := PassiveAggressive.Executor.init [{ target := 1 }]
      let account := (run (pricedStep step) start boughtRun).account PassiveAggressive.sampleConfig
      let value := fun weight =>
        weighted step PassiveAggressive.Executor.cumulativeFilled weight start boughtRun
      account.getNetPnlQuote (.price 110) = some 0 ∧ account.cumFeesQuote = 0 ∧
        (value fun price => 110 - price) = 10 ∧ ¬ MarksToMarket account 110 value) ∧
      (let step := ACSchedule.World.perform ACSchedule.riskNeutralMath ACSchedule.sampleConfig
        let account := (run (pricedStep step) ACSchedule.sampleStart boughtSlice).executor.account
          ACSchedule.sampleConfig
        let value := fun weight => weighted step (fun w => w.executor.cumulativeFilled) weight
          ACSchedule.sampleStart boughtSlice
        account.getNetPnlQuote (.price 110) = some 0 ∧ account.cumFeesQuote = 0 ∧
          (value fun price => 110 - price) = 5 ∧ ¬ MarksToMarket account 110 value) := by
  decide +kernel

end Opms
