import Opms.PassiveAggressive.State
import Opms.PerpMM.Bridge

/-! # Executors as the controller sees them

Configurations, the reports of active executors, and the actions a controller
sends. Quote executors are the limit-maker ones; every other executor works a
close.
-/

namespace Opms.PerpMM

open PassiveAggressive (PassiveAggressiveExecutorConfig)

abbrev ExecutorId := ℕ

inductive ExecutionStrategy
  | limit
  | limitMaker
  | market
  | limitChaser
  deriving DecidableEq

structure OrderExecutorConfig where
  timestamp : ℚ
  tradingPair : String
  connectorName : String
  side : TradeType
  amount : ℚ
  price : Option ℚ := none
  executionStrategy : ExecutionStrategy
  positionAction : PositionAction
  leverage : ℤ
  deriving DecidableEq

structure BufferedMakerExecutorConfig extends OrderExecutorConfig where
  makerBufferBps : ℚ := 8
  deriving DecidableEq

inductive ExecutorConfig
  | passiveAggressive (config : PassiveAggressiveExecutorConfig)
  | order (config : OrderExecutorConfig)
  | bufferedMaker (config : BufferedMakerExecutorConfig)
  deriving DecidableEq

inductive ExecutorType
  | passiveAggressiveExecutor
  | orderExecutor
  | bufferedMakerExecutor
  deriving DecidableEq

namespace ExecutorConfig

def type : ExecutorConfig → ExecutorType
  | .passiveAggressive _ => .passiveAggressiveExecutor
  | .order _ => .orderExecutor
  | .bufferedMaker _ => .bufferedMakerExecutor

def side : ExecutorConfig → TradeType
  | .passiveAggressive config => config.side
  | .order config => config.side
  | .bufferedMaker config => config.side

def timestamp : ExecutorConfig → ℚ
  | .passiveAggressive config => config.timestamp
  | .order config => config.timestamp
  | .bufferedMaker config => config.timestamp

def positionAction : ExecutorConfig → PositionAction
  | .passiveAggressive config => config.positionAction
  | .order config => config.positionAction
  | .bufferedMaker config => config.positionAction

/-- The order fields of a configuration that has them. -/
def orderConfig? : ExecutorConfig → Option OrderExecutorConfig
  | .passiveAggressive _ => none
  | .order config => some config
  | .bufferedMaker config => some config.toOrderExecutorConfig

def childOrderTimeLimit? : ExecutorConfig → Option ℚ
  | .passiveAggressive config => some config.childOrderTimeLimit
  | _ => none

/-- The size an executor works: `total_amount_base` before `amount`. -/
def configNotional : ExecutorConfig → ℚ
  | .passiveAggressive config => config.totalAmountBase
  | .order config => config.amount
  | .bufferedMaker config => config.amount

/-- The amount is part of the key: a growing need replaces a running executor. -/
def executionSignature (config : ExecutorConfig) : ExecutorType × TradeType × Option ℚ × ℚ :=
  (config.type, config.side, config.childOrderTimeLimit?, config.configNotional)

/-- A limit-maker order executor, buffered or plain. -/
def isQuote (config : ExecutorConfig) : Bool :=
  config.orderConfig?.any (·.executionStrategy = .limitMaker)

end ExecutorConfig

/-- What a report says about its order; an absent key is `none`. -/
structure CustomInfo where
  orderId : Option String := none
  exchangeOrderId : Option String := none
  executedAmountBase : ℚ := 0
  orderPrice : Option ℚ := none
  deriving DecidableEq

structure ExecutorInfo where
  id : ExecutorId
  config : ExecutorConfig
  customInfo : CustomInfo := {}
  deriving DecidableEq

namespace ExecutorInfo

def isQuoteExecutor (executor : ExecutorInfo) : Bool := executor.config.isQuote

/-- The quote has an order id, acknowledged by the venue where it reports one. -/
def isLive (executor : ExecutorInfo) : Bool :=
  executor.customInfo.orderId.any (· ≠ "") ∧ executor.customInfo.exchangeOrderId.all (· ≠ "")

end ExecutorInfo

def liveQuoteSides (active : List ExecutorInfo) : Finset TradeType :=
  ((active.filter fun e => e.isQuoteExecutor ∧ e.isLive).map fun e => e.config.side).toFinset

inductive ExecutorAction
  | create (controllerId : String) (config : ExecutorConfig)
  | stop (controllerId : String) (executorId : ExecutorId)
  deriving DecidableEq

/-- The configuration an action creates. -/
def ExecutorAction.created? : ExecutorAction → Option ExecutorConfig
  | .create _ config => some config
  | .stop _ _ => none

/-- The executor an action stops. -/
def ExecutorAction.stopped? : ExecutorAction → Option ExecutorId
  | .create _ _ => none
  | .stop _ executorId => some executorId

end Opms.PerpMM
