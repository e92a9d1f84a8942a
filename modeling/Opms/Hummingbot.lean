import Mathlib.Data.Rat.Defs
import Mathlib.Algebra.Order.Field.Rat

/-! # Hummingbot vocabulary

The enumerations and small records of Hummingbot that the executors and
controllers exchange. Prices, sizes and times are exact rationals; a price the
connector reports as NaN or infinite is `none`.
-/

namespace Opms

inductive TradeType
  | buy
  | sell
  deriving DecidableEq, Repr

inductive OrderType
  | limit
  | market
  deriving DecidableEq, Repr

inductive PositionAction
  | open
  | close
  | nil
  deriving DecidableEq, Repr

inductive RunnableStatus
  | notStarted
  | running
  | shuttingDown
  | terminated
  deriving DecidableEq, Repr

inductive CloseType
  | timeLimit
  | stopLoss
  | takeProfit
  | expired
  | earlyStop
  | trailingStop
  | insufficientBalance
  | failed
  | completed
  | positionHold
  deriving DecidableEq, Repr

/-- Client order ids; `place_order` returns a nonempty one. -/
abbrev OrderId := String

/-- One entry of a fee's `flat_fees`. -/
structure TokenAmount where
  token : String
  amount : ℚ
  deriving DecidableEq, Repr

/-- The fee of a fill: a percentage of its notional and flat amounts. -/
structure TradeFee where
  percent : ℚ := 0
  flatFees : List TokenAmount := []
  deriving DecidableEq, Repr

structure OrderFilledEvent where
  orderId : OrderId
  exchangeTradeId : Option String
  amount : ℚ
  tradeFee : TradeFee := {}
  deriving DecidableEq, Repr

/-- A trade id that identifies the fill: present and nonempty. -/
def OrderFilledEvent.tradeId? (event : OrderFilledEvent) : Option String :=
  event.exchangeTradeId.filter (· ≠ "")

/-- `BuyOrderCompletedEvent` and `SellOrderCompletedEvent`. -/
structure OrderCompletedEvent where
  orderId : OrderId
  baseAssetAmount : ℚ
  deriving DecidableEq, Repr

structure OrderCancelledEvent where
  orderId : OrderId
  deriving DecidableEq, Repr

structure MarketOrderFailureEvent where
  orderId : OrderId
  errorMessage : Option String := none
  deriving DecidableEq, Repr

end Opms
