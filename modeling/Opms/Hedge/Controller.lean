import Opms.Foundation.Registry
import Opms.PassiveAggressive.State
import Mathlib.Tactic.Linarith

/-! # The hedge controller

The pool controller writes its inventory to a shared book. Each cycle the hedge
controller asks the hedging engine for a target short, notes the answer in the
book, and works the distance to its perp position with one executor. The engine
is third-party code and a parameter.
-/

namespace Opms.Hedge

open Foundation PassiveAggressive

structure SharedRiskBook where
  dlmmNetDelta : ℚ := 0
  dlmmInventoryValueUsd : ℚ := 0
  dlmmSigma : ℚ := 0
  dlmmMid : ℚ := 0
  hedgeAction : String := "no_trade"
  hedgeTargetShort : ℚ := 0
  hedgeUrgency : String := "normal"
  gammaRelaxation : ℚ := 1
  lastDlmmTs : ℚ := 0
  lastHedgeTs : ℚ := 0
  deriving DecidableEq

/-- `_REGISTRY`: the books by key. -/
abbrev Books := Registry String SharedRiskBook

/-- `get_shared_book`: the first caller under a key creates its book. -/
def getSharedBook (books : Books) (key : String) : Books :=
  match books.lookup key with
  | some _ => books
  | none => books.set key {}

structure HedgeControllerConfig where
  id : String
  perpConnector : String
  perpTradingPair : String
  sharedBookKey : String
  refreshInterval : ℚ := 5
  deriving DecidableEq

structure PositionSummary where
  connectorName : String
  tradingPair : String
  side : TradeType
  amount : ℚ
  deriving DecidableEq

/-- What the controller tells the engine. -/
structure EvaluateQuery where
  inventoryBase : ℚ
  currentShort : ℚ
  inventoryValueUsd : ℚ
  price : ℚ
  sigmaNow : ℚ
  dt : ℚ
  deriving DecidableEq

/-- The engine's action and target short. -/
abbrev Engine := EvaluateQuery → String × ℚ

structure CreateExecutorAction where
  controllerId : String
  executorConfig : PassiveAggressiveExecutorConfig
  deriving DecidableEq

/-- An amount on its side: buys add to the position and sells take from it. -/
def signedAmount : TradeType → ℚ → ℚ
  | .buy, amount => amount
  | .sell, amount => -amount

variable (cfg : HedgeControllerConfig)

/-- `_shared_book`: the book under the configured key, if one is configured. -/
def sharedBook (books : Books) : Option SharedRiskBook :=
  if cfg.sharedBookKey = "" then none else books.lookup cfg.sharedBookKey

/-- The signed sum over the positions of the configured market. -/
def currentPerpPosition (positionsHeld : List PositionSummary) : ℚ :=
  ((positionsHeld.filter fun position =>
    position.connectorName = cfg.perpConnector ∧ position.tradingPair = cfg.perpTradingPair).map
      fun position => signedAmount position.side position.amount).sum

/-- The book after the engine was asked. -/
def updateProcessedData (positionsHeld : List PositionSummary) (now : ℚ) (evaluate : Engine)
    (book : SharedRiskBook) : SharedRiskBook :=
  let answer := evaluate {
    inventoryBase := book.dlmmNetDelta
    currentShort := -currentPerpPosition cfg positionsHeld
    inventoryValueUsd := book.dlmmInventoryValueUsd
    price := book.dlmmMid
    sigmaNow := book.dlmmSigma
    dt := cfg.refreshInterval }
  { book with
    hedgeAction := answer.1
    hedgeTargetShort := answer.2
    hedgeUrgency := if answer.1 = "rehedge" then "passive" else "normal"
    gammaRelaxation := if answer.1 = "force_hedge" then 1 / 2 else 1
    lastHedgeTs := now }

/-- The signed distance from the perp position to the hedge the book asks for. -/
def hedgeDelta (positionsHeld : List PositionSummary) (book : SharedRiskBook) : ℚ :=
  -book.hedgeTargetShort - currentPerpPosition cfg positionsHeld

/-- The executor that works a distance. -/
def hedgeConfig (now delta : ℚ) : PassiveAggressiveExecutorConfig where
  timestamp := now
  connectorName := cfg.perpConnector
  tradingPair := cfg.perpTradingPair
  side := if delta < 0 then .sell else .buy
  totalAmountBase := |delta|
  childOrderQuantity := |delta| / 3
  childOrderTimeLimit := 60
  childOrderRefreshTime := 20
  leverage := 1

def determineExecutorActions (positionsHeld : List PositionSummary) (now : ℚ) :
    Option SharedRiskBook → List CreateExecutorAction
  | none => []
  | some book =>
      if book.hedgeAction = "no_trade" then
        []
      else if |hedgeDelta cfg positionsHeld book| < 1 / 1000000 then
        []
      else
        [{ controllerId := cfg.id
           executorConfig := hedgeConfig cfg now (hedgeDelta cfg positionsHeld book) }]

/-- The book asks for a trade that is not too small to make. -/
def WantsHedge (positionsHeld : List PositionSummary) (book : SharedRiskBook) : Prop :=
  book.hedgeAction ≠ "no_trade" ∧ 1 / 1000000 ≤ |hedgeDelta cfg positionsHeld book|

instance (positionsHeld : List PositionSummary) (book : SharedRiskBook) :
    Decidable (WantsHedge cfg positionsHeld book) :=
  inferInstanceAs (Decidable (_ ∧ _))

variable {cfg}

/-- One executor over the whole distance when the book asks for it, else nothing. -/
theorem determineExecutorActions_some (positionsHeld : List PositionSummary) (now : ℚ)
    (book : SharedRiskBook) :
    determineExecutorActions cfg positionsHeld now (some book) =
      if WantsHedge cfg positionsHeld book then
        [{ controllerId := cfg.id
           executorConfig := hedgeConfig cfg now (hedgeDelta cfg positionsHeld book) }]
      else [] := by
  simp only [determineExecutorActions]
  split
  next hquiet => rw [if_neg fun hwants => hwants.1 hquiet]
  next hasked =>
    split
    next hsmall => rw [if_neg fun hwants => absurd hwants.2 (not_le.mpr hsmall)]
    next hlarge => rw [if_pos ⟨hasked, not_lt.mp hlarge⟩]

theorem WantsHedge.delta_pos {positionsHeld : List PositionSummary} {book : SharedRiskBook}
    (hwants : WantsHedge cfg positionsHeld book) : 0 < |hedgeDelta cfg positionsHeld book| :=
  lt_of_lt_of_le (by norm_num) hwants.2

/-- The executor's order covers exactly the signed distance. -/
theorem signedAmount_hedgeConfig (now delta : ℚ) :
    signedAmount (hedgeConfig cfg now delta).side (hedgeConfig cfg now delta).totalAmountBase =
      delta := by
  simp only [hedgeConfig]
  split
  next hneg => simp [signedAmount, abs_of_neg hneg]
  next hpos => simp [signedAmount, abs_of_nonneg (not_lt.mp hpos)]

/-- The position entry that an executor's fill adds. -/
def fillEntry (config : PassiveAggressiveExecutorConfig) (amount : ℚ) : PositionSummary where
  connectorName := config.connectorName
  tradingPair := config.tradingPair
  side := config.side
  amount := amount

/-- Filled in full, the executor brings the position to the target short. -/
theorem currentPerpPosition_hedged (positionsHeld : List PositionSummary) (now : ℚ)
    (book : SharedRiskBook) :
    let config := hedgeConfig cfg now (hedgeDelta cfg positionsHeld book)
    currentPerpPosition cfg (positionsHeld ++ [fillEntry config config.totalAmountBase]) =
      -book.hedgeTargetShort := by
  intro config
  have hfill : currentPerpPosition cfg [fillEntry config config.totalAmountBase] =
      hedgeDelta cfg positionsHeld book := by
    have hmarket : config.connectorName = cfg.perpConnector ∧
        config.tradingPair = cfg.perpTradingPair := ⟨rfl, rfl⟩
    simp [currentPerpPosition, fillEntry, hmarket, config, signedAmount_hedgeConfig]
  calc currentPerpPosition cfg (positionsHeld ++ [fillEntry config config.totalAmountBase])
      = currentPerpPosition cfg positionsHeld +
          currentPerpPosition cfg [fillEntry config config.totalAmountBase] := by
        simp only [currentPerpPosition, List.filter_append, List.map_append, List.sum_append]
    _ = -book.hedgeTargetShort := by
        rw [hfill, hedgeDelta]
        ring

end Opms.Hedge
